/-
This file proves what the pid lock guarantees over every run of its calls: at most one live
call holds the lock, the lock file is only unlinked by its owner or by the one call that
claimed its stale content, and a call that runs alone obtains a lock that no live process
holds, unless another call is about to remove the stale file.

The invariant says what a call may rely on in each phase. What carries it is that a content is
published at most once, so that a stale content, once gone, never returns to the lock file.
-/

import AiSwitcher.Shared.PidLock

namespace AiSwitcher.PidLock

variable {Pid Call Text Name : Type}

/-! ### Phases -/

/-- The content that a call has read and found stale. -/
def Phase.stale : Phase Call Text → Option Text
  | .judging _ => none
  | phase => phase.seen

/-- The lock file is the call's own while its process lives. -/
def Phase.Owns : Phase Call Text → Prop
  | .published | .holding | .dropping => True
  | _ => False

/-- The call is about to link its temporary file. -/
def Phase.Links : Phase Call Text → Prop
  | .linking | .claiming _ => True
  | _ => False

theorem Phase.seen_of_claimed {phase : Phase Call Text} {raw : Text}
    (isClaimed : phase.claimed = some raw) : phase.seen = some raw := by
  cases phase <;> simp_all [Phase.claimed, Phase.seen]

theorem Phase.stale_of_claimed {phase : Phase Call Text} {raw : Text}
    (isClaimed : phase.claimed = some raw) : phase.stale = some raw := by
  cases phase <;> simp_all [Phase.claimed, Phase.stale, Phase.seen]

theorem Phase.seen_of_stale {phase : Phase Call Text} {raw : Text}
    (isStale : phase.stale = some raw) : phase.seen = some raw := by
  cases phase <;> simp_all [Phase.stale]

variable {format : LockFormat Pid Call Text Name} {state after : State Pid Call Text Name}

/-! ### What one file operation does -/

attribute [elab_as_elim] State.next.fun_cases_unfolding

section Operation

variable [DecidableEq Call] [DecidableEq Text] {call : Call} {fault late : Bool} {phase goes : Phase Call Text}

theorem next_linkLock (moved : state.next format call fault late phase = some (.linkLock, goes)) :
    phase = .linking ∧ state.lock = none ∧ goes = .published := by
  revert moved
  fun_cases State.next format state call fault late phase <;>
    simp only [Option.some.injEq, Prod.mk.injEq, reduceCtorEq, false_and, IsEmpty.forall_iff] <;>
    grind [Action.caught]

theorem next_unlinkLock
    (moved : state.next format call fault late phase = some (.unlinkLock, goes)) :
    (∃ seen, phase = .removing seen ∧ goes = .unclaiming seen true) ∨
      phase = .dropping ∧ goes = .released := by
  revert moved
  fun_cases State.next format state call fault late phase <;>
    simp only [Option.some.injEq, Prod.mk.injEq, reduceCtorEq, false_and, IsEmpty.forall_iff] <;>
    grind [Action.caught]

theorem next_linkClaim {name : Name}
    (moved : state.next format call fault late phase = some (.linkClaim name, goes)) :
    ∃ seen, phase = .claiming seen ∧ name = format.claimName seen ∧ state.claims name = none ∧
      goes = .rereading seen := by
  revert moved
  fun_cases State.next format state call fault late phase <;>
    simp only [Option.some.injEq, Prod.mk.injEq, reduceCtorEq, false_and, IsEmpty.forall_iff] <;>
    grind [Action.caught]

theorem next_unlinkClaim {name : Name}
    (moved : state.next format call fault late phase = some (.unlinkClaim name, goes)) :
    ∃ seen, name = format.claimName seen ∧
      ((∃ won, phase = .unclaiming seen won ∧ goes = .clearing won) ∨
        phase = .reapingClaim seen ∧ goes = .clearing false) := by
  revert moved
  fun_cases State.next format state call fault late phase <;>
    simp only [Option.some.injEq, Prod.mk.injEq, reduceCtorEq, false_and, IsEmpty.forall_iff] <;>
    grind [Action.caught]

/-- A temporary file is only unlinked by its own call or after the death of its process. -/
theorem next_unlinkTemp {name : Call}
    (moved : state.next format call fault late phase = some (.unlinkTemp name, goes)) :
    name = call ∧ ¬ goes.Links ∨ state.alive (format.pid name) = false := by
  revert moved
  fun_cases State.next format state call fault late phase <;>
    simp only [Option.some.injEq, Prod.mk.injEq, reduceCtorEq, false_and, IsEmpty.forall_iff] <;>
    grind [Action.caught, Phase.Links]

/-- What a call that goes on has seen it saw before, or has just read. -/
theorem next_seen {action : Action Call Name} {raw : Text}
    (moved : state.next format call fault late phase = some (action, goes))
    (isSeen : goes.seen = some raw) : phase.seen = some raw ∨ state.lock = some raw := by
  revert moved
  fun_cases State.next format state call fault late phase <;>
    simp only [Option.some.injEq, Prod.mk.injEq, reduceCtorEq,
      IsEmpty.forall_iff] <;>
    grind [Action.caught, Phase.seen]

/-- A content is found stale by asking for its process. -/
theorem next_stale {action : Action Call Name} {raw : Text}
    (moved : state.next format call fault late phase = some (action, goes))
    (isStale : goes.stale = some raw) :
    phase.stale = some raw ∨ state.isStale format raw = true := by
  revert moved
  fun_cases State.next format state call fault late phase <;>
    simp only [Option.some.injEq, Prod.mk.injEq, reduceCtorEq,
      IsEmpty.forall_iff] <;>
    grind [Action.caught, Phase.stale, Phase.seen]

theorem next_claimed {action : Action Call Name} {raw : Text}
    (moved : state.next format call fault late phase = some (action, goes))
    (isClaimed : goes.claimed = some raw) :
    phase.claimed = some raw ∨ action = .linkClaim (format.claimName raw) := by
  revert moved
  fun_cases State.next format state call fault late phase <;>
    simp only [Option.some.injEq, Prod.mk.injEq, reduceCtorEq,
      IsEmpty.forall_iff] <;>
    grind [Action.caught, Phase.claimed]

/-- Without a fault a call lets go of a claim by unlinking its file. -/
theorem next_unclaimed {action : Action Call Name} {raw : Text}
    (moved : state.next format call false late phase = some (action, goes))
    (isClaimed : phase.claimed = some raw) :
    goes.claimed = some raw ∨
      (∃ won, phase = .unclaiming raw won) ∧ action = .unlinkClaim (format.claimName raw) := by
  revert moved
  fun_cases State.next format state call false late phase <;>
    simp only [Option.some.injEq, Prod.mk.injEq, reduceCtorEq,
      IsEmpty.forall_iff] <;>
    grind [Action.caught, Phase.claimed]

theorem next_unpublished {action : Action Call Name}
    (moved : state.next format call fault late phase = some (action, goes))
    (unpublished : goes.Unpublished) : phase.Unpublished := by
  revert moved
  fun_cases State.next format state call fault late phase <;>
    simp only [Option.some.injEq, Prod.mk.injEq, reduceCtorEq,
      IsEmpty.forall_iff] <;>
    grind [Action.caught, Phase.Unpublished]

/-- A call owns the lock file by linking it, or by finding its own token there. -/
theorem next_owns {action : Action Call Name}
    (moved : state.next format call fault late phase = some (action, goes)) (owns : goes.Owns) :
    action = .linkLock ∨ phase.Owns ∧ action ≠ .unlinkLock ∨
      action = .keep ∧ ∃ raw, state.lock = some raw ∧ format.readToken raw = some call := by
  revert moved
  fun_cases State.next format state call fault late phase <;>
    simp only [Option.some.injEq, Prod.mk.injEq, reduceCtorEq,
      IsEmpty.forall_iff] <;>
    grind [Action.caught, Phase.Owns]

theorem next_links {action : Action Call Name}
    (moved : state.next format call fault late phase = some (action, goes))
    (links : goes.Links) : action = .writeTemp := by
  revert moved
  fun_cases State.next format state call fault late phase <;>
    simp only [Option.some.injEq, Prod.mk.injEq, reduceCtorEq,
      IsEmpty.forall_iff] <;>
    grind [Action.caught, Phase.Links]

theorem next_removing {action : Action Call Name} {raw : Text}
    (moved : state.next format call fault late phase = some (action, .removing raw)) :
    action = .keep ∧ state.lock = some raw := by
  revert moved
  fun_cases State.next format state call fault late phase <;>
    simp only [Option.some.injEq, Prod.mk.injEq, reduceCtorEq, and_false, IsEmpty.forall_iff]
  grind [Action.caught]

/-- Without a fault a claimant goes on once its content is gone from the lock file. -/
theorem next_unclaiming {action : Action Call Name} {raw : Text} {won : Bool}
    (moved : state.next format call fault late phase = some (action, .unclaiming raw won))
    (faultless : fault = true → phase.claimed = none) :
    action = .keep ∧ state.lock ≠ some raw ∨ action = .unlinkLock := by
  revert moved
  fun_cases State.next format state call fault late phase <;>
    simp only [Option.some.injEq, Prod.mk.injEq, reduceCtorEq, and_false, IsEmpty.forall_iff] <;>
    grind [Action.caught, Phase.claimed]

theorem next_judgingClaim {action : Action Call Name} {raw claim : Text}
    (moved : state.next format call fault late phase = some (action, .judgingClaim raw claim)) :
    phase = .readingClaim raw ∧ action = .keep ∧
      state.claims (format.claimName raw) = some claim := by
  revert moved
  fun_cases State.next format state call fault late phase <;>
    simp only [Option.some.injEq, Prod.mk.injEq, reduceCtorEq, false_and, and_false,
      IsEmpty.forall_iff]
  grind [Action.caught]

theorem next_reapingClaim {action : Action Call Name} {raw : Text}
    (moved : state.next format call fault late phase = some (action, .reapingClaim raw)) :
    action = .keep ∧
      ∃ claim, phase = .judgingClaim raw claim ∧ state.isStale format claim = true := by
  revert moved
  fun_cases State.next format state call fault late phase <;>
    simp only [Option.some.injEq, Prod.mk.injEq, reduceCtorEq, false_and, and_false,
      IsEmpty.forall_iff]
  grind [Action.caught]

end Operation

/-- What one step of a call may do: a file operation, of the call called back by its caller or of
the code up to its next `await`. -/
structure Moved (format : LockFormat Pid Call Text Name) (state : State Pid Call Text Name)
    (call : Call) (action : Action Call Name) (goes : Phase Call Text) : Prop where
  linkLock : action = .linkLock →
    state.phase call = .linking ∧ state.lock = none ∧ goes = .published
  unlinkLock : action = .unlinkLock →
    (∃ seen, state.phase call = .removing seen ∧ goes = .unclaiming seen true) ∨
      state.phase call = .dropping ∧ goes = .released
  linkClaim : ∀ name, action = .linkClaim name →
    ∃ seen, state.phase call = .claiming seen ∧ name = format.claimName seen ∧
      state.claims name = none ∧ goes = .rereading seen
  unlinkClaim : ∀ name, action = .unlinkClaim name →
    ∃ seen, name = format.claimName seen ∧
      ((∃ won, state.phase call = .unclaiming seen won ∧ goes = .clearing won) ∨
        state.phase call = .reapingClaim seen ∧ goes = .clearing false)
  unlinkTemp : ∀ name, action = .unlinkTemp name →
    name = call ∧ ¬ goes.Links ∨ state.alive (format.pid name) = false
  seen : ∀ raw, goes.seen = some raw →
    (state.phase call).seen = some raw ∨ state.lock = some raw
  stale : ∀ raw, goes.stale = some raw →
    (state.phase call).stale = some raw ∨ state.isStale format raw = true
  claimed : ∀ raw, goes.claimed = some raw →
    (state.phase call).claimed = some raw ∨ action = .linkClaim (format.claimName raw)
  unclaimed : ∀ raw, (state.phase call).claimed = some raw → goes.claimed = some raw ∨
    (∃ won, state.phase call = .unclaiming raw won) ∧
      action = .unlinkClaim (format.claimName raw)
  unpublished : goes.Unpublished → (state.phase call).Unpublished
  owns : goes.Owns → action = .linkLock ∨ (state.phase call).Owns ∧ action ≠ .unlinkLock ∨
    action = .keep ∧ ∃ raw, state.lock = some raw ∧ format.readToken raw = some call
  links : goes.Links → action = .writeTemp
  removing : ∀ raw, goes = .removing raw → action = .keep ∧ state.lock = some raw
  unclaiming : ∀ raw won, goes = .unclaiming raw won →
    action = .keep ∧ state.lock ≠ some raw ∨ action = .unlinkLock
  judgingClaim : ∀ raw claim, goes = .judgingClaim raw claim →
    state.phase call = .readingClaim raw ∧ action = .keep ∧
      state.claims (format.claimName raw) = some claim
  reapingClaim : ∀ raw, goes = .reapingClaim raw → action = .keep ∧
    ∃ claim, state.phase call = .judgingClaim raw claim ∧ state.isStale format claim = true

section Moves

variable {call : Call} {action : Action Call Name} {goes : Phase Call Text}

theorem moved_start (isIdle : state.phase call = .idle) :
    Moved format state call .keep .listing := by
  constructor <;> simp_all [Phase.seen, Phase.stale, Phase.claimed, Phase.Unpublished,
    Phase.Owns, Phase.Links]

theorem moved_release (isHolding : state.phase call = .holding ∨ state.phase call = .released) :
    Moved format state call .keep .releasing := by
  rcases isHolding with isHolding | isReleased <;> constructor <;>
    simp_all [Phase.seen, Phase.stale, Phase.claimed, Phase.Unpublished, Phase.Owns, Phase.Links]

variable [DecidableEq Call] [DecidableEq Text]

theorem moved_of_next {fault late : Bool}
    (faultless : fault = true → (state.phase call).claimed = none)
    (moved : state.next format call fault late (state.phase call) = some (action, goes)) :
    Moved format state call action goes where
  linkLock := by rintro rfl; exact next_linkLock moved
  unlinkLock := by rintro rfl; exact next_unlinkLock moved
  linkClaim := by rintro name rfl; exact next_linkClaim moved
  unlinkClaim := by rintro name rfl; exact next_unlinkClaim moved
  unlinkTemp := by rintro name rfl; exact next_unlinkTemp moved
  seen _ := next_seen moved
  stale _ := next_stale moved
  claimed _ := next_claimed moved
  unclaimed raw isClaimed := by
    cases fault with
    | false => exact next_unclaimed moved isClaimed
    | true => exact absurd isClaimed (by simp [faultless rfl])
  unpublished := next_unpublished moved
  owns := next_owns moved
  links := next_links moved
  removing := by rintro raw rfl; exact next_removing moved
  unclaiming := by rintro raw won rfl; exact next_unclaiming moved faultless
  judgingClaim := by rintro raw claim rfl; exact next_judgingClaim moved
  reapingClaim := by rintro raw rfl; exact next_reapingClaim moved

variable [DecidableEq Pid] [DecidableEq Name]

/-- Every step moves one live call, or a process dies. -/
theorem Step.cases (step : Step format state after) :
    (∃ call action goes, state.alive (format.pid call) = true ∧
      Moved format state call action goes ∧
      after = (state.perform format call action).enter call goes) ∨
    ∃ pid, (∀ call, format.pid call = pid → (state.phase call).claimed = none) ∧
      after = { state with alive := Function.update state.alive pid false } := by
  obtain ⟨event, allowed, step⟩ := step
  cases event with
  | start call =>
    obtain ⟨⟨live, isIdle⟩, rfl⟩ := by simpa [State.step] using step
    exact .inl ⟨call, .keep, .listing, live, moved_start isIdle, rfl⟩
  | run call fault late =>
    obtain ⟨live, action, goes, moved, rfl⟩ := by simpa [State.step] using step
    exact .inl ⟨call, action, goes, live, moved_of_next allowed moved, rfl⟩
  | release call =>
    obtain ⟨⟨live, isHolding⟩, rfl⟩ := by simpa [State.step] using step
    exact .inl ⟨call, .keep, .releasing, live, moved_release isHolding, rfl⟩
  | die pid => exact .inr ⟨pid, allowed, (Option.some.inj step).symm⟩

end Moves

/-! ### The invariant -/

/-- What a call knows about the lock file from what it did in this attempt. A content that has
been found stale does not come back, so that it is gone stays true. -/
def State.Knows (format : LockFormat Pid Call Text Name) (state : State Pid Call Text Name) :
    Phase Call Text → Prop
  | .removing raw => state.lock = some raw
  | .unclaiming raw _ | .reapingClaim raw => state.lock ≠ some raw
  | .judgingClaim raw claim => state.lock ≠ some raw ∨
      ∃ owner, claim = format.body owner ∧ (state.phase owner).claimed = some raw
  | _ => True

structure Inv (format : LockFormat Pid Call Text Name) (state : State Pid Call Text Name) :
    Prop where
  owned : ∀ call, state.alive (format.pid call) = true → (state.phase call).Owns →
    state.lock = some (format.body call)
  fresh : ∀ call, (state.phase call).Unpublished → state.lock ≠ some (format.body call) ∧
    ∀ other, (state.phase other).seen ≠ some (format.body call)
  genuine : ∀ raw call, state.lock = some raw → format.readToken raw = some call →
    raw = format.body call
  stale : ∀ call raw, (state.phase call).stale = some raw → state.isStale format raw = true
  claimed : ∀ call raw, (state.phase call).claimed = some raw →
    state.alive (format.pid call) = true ∧
      (state.lock = some raw → state.claims (format.claimName raw) = some (format.body call))
  claims : ∀ name claim, state.claims name = some claim → ∃ owner raw,
    (state.phase owner).claimed = some raw ∧ format.claimName raw = name ∧
      claim = format.body owner
  knows : ∀ call, state.Knows format (state.phase call)
  temps : ∀ call, state.alive (format.pid call) = true → (state.phase call).Links →
    call ∈ state.temps

theorem LockFormat.body_injective : Function.Injective format.body := by
  intro first second same
  have token := congrArg format.readToken same
  rw [format.readToken_body, format.readToken_body] at token
  exact Option.some.inj token

theorem isStale_body (call : Call) :
    state.isStale format (format.body call) = !state.alive (format.pid call) := by
  simp only [State.isStale, format.readPid_body]

theorem inv_of_initial (initial : state.Initial format) : Inv format state := by
  constructor
  case owned => simp [initial.idle, Phase.Owns]
  case fresh =>
    intro call _
    refine ⟨fun isLock => ?_, by simp [initial.idle, Phase.seen]⟩
    exact initial.foreign _ call isLock (format.readToken_body call)
  case genuine => exact fun raw call isLock isToken => absurd isToken (initial.foreign raw call isLock)
  case stale => simp [initial.idle, Phase.stale, Phase.seen]
  case claimed => simp [initial.idle, Phase.claimed]
  case claims => simp [initial.unclaimed]
  case knows => simp [initial.idle, State.Knows]
  case temps => simp [initial.idle, Phase.Links]

theorem Inv.lock_of_removing (inv : Inv format state) {call : Call} {raw : Text}
    (isRemoving : state.phase call = .removing raw) : state.lock = some raw := by
  have known := inv.knows call
  rwa [isRemoving] at known

theorem Inv.gone_of_unclaiming (inv : Inv format state) {call : Call} {raw : Text} {won : Bool}
    (isUnclaiming : state.phase call = .unclaiming raw won) : state.lock ≠ some raw := by
  have known := inv.knows call
  rwa [isUnclaiming] at known

theorem Inv.gone_of_reapingClaim (inv : Inv format state) {call : Call} {raw : Text}
    (isReaping : state.phase call = .reapingClaim raw) : state.lock ≠ some raw := by
  have known := inv.knows call
  rwa [isReaping] at known

/-- Two calls do not hold the claim on the content of the lock file. -/
theorem Inv.claimed_unique (inv : Inv format state) {first second : Call} {raw : Text}
    (isFirst : (state.phase first).claimed = some raw)
    (isSecond : (state.phase second).claimed = some raw) (isLock : state.lock = some raw) :
    first = second := by
  have claim := (inv.claimed first raw isFirst).2 isLock
  rw [(inv.claimed second raw isSecond).2 isLock] at claim
  exact (format.body_injective (Option.some.inj claim)).symm

section Preservation

variable [DecidableEq Call] {call : Call} {action : Action Call Name} {goes : Phase Call Text}

@[simp] theorem enter_self : (state.enter call goes).phase call = goes := Function.update_self ..

theorem enter_other {other : Call} (distinct : other ≠ call) :
    (state.enter call goes).phase other = state.phase other :=
  Function.update_of_ne distinct ..

variable [DecidableEq Name]

@[simp] theorem perform_alive : (state.perform format call action).alive = state.alive := by
  cases action <;> rfl

@[simp] theorem perform_phase : (state.perform format call action).phase = state.phase := by
  cases action <;> rfl

/-- A content that is in the lock file was there, or was linked. -/
theorem lock_of_perform {raw : Text} (isLock : (state.perform format call action).lock = some raw) :
    state.lock = some raw ∨ action = .linkLock ∧ raw = format.body call := by
  cases action with
  | linkLock => exact .inr ⟨rfl, (Option.some.inj isLock).symm⟩
  | unlinkLock => cases isLock
  | _ => exact .inl isLock

theorem perform_lock (noLink : action ≠ .linkLock) (noUnlink : action ≠ .unlinkLock) :
    (state.perform format call action).lock = state.lock := by
  cases action <;> first | rfl | contradiction

theorem claims_of_perform {name : Name} {claim : Text}
    (isClaim : (state.perform format call action).claims name = some claim) :
    state.claims name = some claim ∧ action ≠ .unlinkClaim name ∨
      action = .linkClaim name ∧ claim = format.body call := by
  cases action with
  | linkClaim linked =>
    by_cases same : name = linked
    · subst same
      exact .inr ⟨rfl, (by simpa [State.perform] using isClaim.symm)⟩
    · exact .inl ⟨by simpa [State.perform, same] using isClaim, nofun⟩
  | unlinkClaim unlinked =>
    by_cases same : name = unlinked
    · subst same
      simp [State.perform] at isClaim
    · exact .inl ⟨by simpa [State.perform, same] using isClaim, by simpa using Ne.symm same⟩
  | _ => exact .inl ⟨isClaim, nofun⟩

theorem perform_claims {name : Name} (noLink : action ≠ .linkClaim name)
    (noUnlink : action ≠ .unlinkClaim name) :
    (state.perform format call action).claims name = state.claims name := by
  cases action with
  | linkClaim linked =>
    have distinct : name ≠ linked := by rintro rfl; exact noLink rfl
    simp [State.perform, distinct]
  | unlinkClaim unlinked =>
    have distinct : name ≠ unlinked := by rintro rfl; exact noUnlink rfl
    simp [State.perform, distinct]
  | _ => rfl

/-- A content that some call has seen does not come back to the lock file. -/
theorem Inv.not_returned (inv : Inv format state) (moved : Moved format state call action goes)
    {other : Call} {raw : Text} (isSeen : (state.phase other).seen = some raw)
    (isLock : (state.perform format call action).lock = some raw) : state.lock = some raw := by
  rcases lock_of_perform isLock with before | ⟨isLink, rfl⟩
  · exact before
  · obtain ⟨isLinking, -, -⟩ := moved.linkLock isLink
    exact absurd isSeen ((inv.fresh call (by simp [isLinking, Phase.Unpublished])).2 other)

/-- The lock file of a live owner is only unlinked by the owner. -/
theorem Inv.owned_kept (inv : Inv format state) (live : state.alive (format.pid call) = true)
    (moved : Moved format state call action goes) {owner : Call}
    (owning : state.alive (format.pid owner) = true) (owns : (state.phase owner).Owns)
    (other : owner ≠ call) :
    (state.perform format call action).lock = some (format.body owner) := by
  have isLock := inv.owned owner owning owns
  have noLink : action ≠ .linkLock := by
    intro isLink
    simp [(moved.linkLock isLink).2.1] at isLock
  have noUnlink : action ≠ .unlinkLock := by
    intro isUnlink
    rcases moved.unlinkLock isUnlink with ⟨seen, isRemoving, -⟩ | ⟨isDropping, -⟩
    · have isSeen := inv.lock_of_removing isRemoving
      have isStale := inv.stale call seen (by simp [isRemoving, Phase.stale, Phase.seen])
      rw [isLock] at isSeen
      rw [← Option.some.inj isSeen, isStale_body, owning] at isStale
      cases isStale
    · rw [inv.owned call live (by simp [isDropping, Phase.Owns])] at isLock
      exact other (format.body_injective (Option.some.inj isLock)).symm
  rw [perform_lock noLink noUnlink, isLock]

theorem Inv.owned_moved (inv : Inv format state) (live : state.alive (format.pid call) = true)
    (moved : Moved format state call action goes) (owns : goes.Owns) :
    (state.perform format call action).lock = some (format.body call) := by
  rcases moved.owns owns with rfl | ⟨owned, noUnlink⟩ | ⟨rfl, raw, isLock, isToken⟩
  · rfl
  · have noLink : action ≠ .linkLock := by
      intro isLink
      simp [(moved.linkLock isLink).1, Phase.Owns] at owned
    rw [perform_lock noLink noUnlink, inv.owned call live owned]
  · obtain rfl := inv.genuine raw call isLock isToken
    exact isLock

theorem Inv.fresh_moved (inv : Inv format state) (moved : Moved format state call action goes)
    {other : Call} (unpublished : (((state.perform format call action).enter call goes).phase
      other).Unpublished) :
    (state.phase other).Unpublished ∧
      (state.perform format call action).lock ≠ some (format.body other) := by
  have before : (state.phase other).Unpublished := by
    by_cases same : other = call
    · subst same
      exact moved.unpublished (by simpa using unpublished)
    · simpa [enter_other same] using unpublished
  refine ⟨before, fun isLock => ?_⟩
  rcases lock_of_perform isLock with isLock | ⟨isLink, same⟩
  · exact (inv.fresh other before).1 isLock
  · obtain rfl := format.body_injective same
    simp [(moved.linkLock isLink).2.2, Phase.Unpublished] at unpublished

/-- The claim on the content of the lock file stays with the call that won it. -/
theorem Inv.claim_kept (inv : Inv format state) (moved : Moved format state call action goes)
    {owner : Call} {raw : Text} (isClaimed : (state.phase owner).claimed = some raw)
    (isLock : state.lock = some raw) :
    (state.perform format call action).claims (format.claimName raw) =
      some (format.body owner) := by
  have isClaim := (inv.claimed owner raw isClaimed).2 isLock
  have noLink : action ≠ .linkClaim (format.claimName raw) := by
    intro isLink
    obtain ⟨seen, -, -, free, -⟩ := moved.linkClaim _ isLink
    simp [free] at isClaim
  -- Whoever unlinks the claim file of a content knows that the content is gone.
  have noUnlink : action ≠ .unlinkClaim (format.claimName raw) := by
    intro isUnlink
    obtain ⟨seen, same, place⟩ := moved.unlinkClaim _ isUnlink
    obtain rfl := format.claimName_injective same
    have gone : state.lock ≠ some raw := by
      rcases place with ⟨won, isUnclaiming, -⟩ | ⟨isReaping, -⟩
      · exact inv.gone_of_unclaiming isUnclaiming
      · exact inv.gone_of_reapingClaim isReaping
    exact gone isLock
  rw [perform_claims noLink noUnlink, isClaim]

theorem Inv.knows_moved (inv : Inv format state) (moved : Moved format state call action goes) :
    ((state.perform format call action).enter call goes).Knows format goes := by
  cases goes with
  | removing raw =>
    obtain ⟨rfl, isLock⟩ := moved.removing raw rfl
    exact isLock
  | unclaiming raw won =>
    rcases moved.unclaiming raw won rfl with ⟨rfl, gone⟩ | rfl
    · exact gone
    · exact nofun
  | reapingClaim raw =>
    obtain ⟨rfl, claim, isJudging, isStale⟩ := moved.reapingClaim raw rfl
    have known := inv.knows call
    rw [isJudging] at known
    rcases known with gone | ⟨owner, rfl, isClaimed⟩
    · exact gone
    · rw [isStale_body, (inv.claimed owner raw isClaimed).1] at isStale
      cases isStale
  | judgingClaim raw claim =>
    obtain ⟨isReading, rfl, isClaim⟩ := moved.judgingClaim raw claim rfl
    obtain ⟨owner, claimed, isClaimed, same, rfl⟩ := inv.claims _ _ isClaim
    obtain rfl := format.claimName_injective same
    have other : owner ≠ call := by
      rintro rfl
      simp [isReading, Phase.claimed] at isClaimed
    exact .inr ⟨owner, rfl, by rwa [enter_other other, perform_phase]⟩
  | _ => trivial

theorem Inv.knows_kept (inv : Inv format state) (live : state.alive (format.pid call) = true)
    (moved : Moved format state call action goes) {other : Call} (distinct : other ≠ call) :
    ((state.perform format call action).enter call goes).Knows format (state.phase other) := by
  have known := inv.knows other
  have gone {raw : Text} (isSeen : (state.phase other).seen = some raw)
      (before : state.lock ≠ some raw) : (state.perform format call action).lock ≠ some raw :=
    fun isLock => before (inv.not_returned moved isSeen isLock)
  cases isPhase : state.phase other with
  | removing raw =>
    rw [isPhase] at known
    have isLock : state.lock = some raw := known
    have noLink : action ≠ .linkLock := by
      intro isLink
      simp [(moved.linkLock isLink).2.1] at isLock
    have noUnlink : action ≠ .unlinkLock := by
      intro isUnlink
      rcases moved.unlinkLock isUnlink with ⟨seen, isRemoving, -⟩ | ⟨isDropping, -⟩
      · have isSeen := inv.lock_of_removing isRemoving
        obtain rfl := Option.some.inj (isLock.symm.trans isSeen)
        exact distinct (inv.claimed_unique (by rw [isPhase]; rfl) (by rw [isRemoving]; rfl) isLock)
      · have isStale := inv.stale other raw (by simp [isPhase, Phase.stale, Phase.seen])
        rw [inv.owned call live (by simp [isDropping, Phase.Owns])] at isLock
        rw [← Option.some.inj isLock, isStale_body, live] at isStale
        cases isStale
    exact (perform_lock noLink noUnlink).trans isLock
  | unclaiming raw won =>
    rw [isPhase] at known
    exact gone (by rw [isPhase]; rfl) known
  | reapingClaim raw =>
    rw [isPhase] at known
    exact gone (by rw [isPhase]; rfl) known
  | judgingClaim raw claim =>
    rw [isPhase] at known
    have isSeen : (state.phase other).seen = some raw := by rw [isPhase]; rfl
    rcases known with before | ⟨owner, rfl, isClaimed⟩
    · exact .inl (gone isSeen before)
    by_cases same : owner = call
    · subst same
      rcases moved.unclaimed raw isClaimed with isClaimed | ⟨⟨won, isUnclaiming⟩, -⟩
      · exact .inr ⟨owner, rfl, by simpa using isClaimed⟩
      · exact .inl (gone isSeen (inv.gone_of_unclaiming isUnclaiming))
    · exact .inr ⟨owner, rfl, by rwa [enter_other same, perform_phase]⟩
  | _ => trivial

/-- What one step of a live call preserves. -/
theorem Inv.perform_enter (inv : Inv format state) (live : state.alive (format.pid call) = true)
    (moved : Moved format state call action goes) :
    Inv format ((state.perform format call action).enter call goes) where
  owned owner owning owns := by
    by_cases same : owner = call
    · subst same
      exact inv.owned_moved live moved (by simpa using owns)
    · rw [enter_other same, perform_phase] at owns
      exact inv.owned_kept live moved (by simpa [State.enter] using owning) owns same
  fresh other unpublished := by
    obtain ⟨before, notLock⟩ := inv.fresh_moved moved unpublished
    refine ⟨notLock, fun seer isSeen => ?_⟩
    by_cases same : seer = call
    · subst same
      rcases moved.seen _ (by simpa using isSeen) with isSeen | isLock
      · exact (inv.fresh other before).2 seer isSeen
      · exact (inv.fresh other before).1 isLock
    · rw [enter_other same, perform_phase] at isSeen
      exact (inv.fresh other before).2 seer isSeen
  genuine raw other isLock isToken := by
    rcases lock_of_perform isLock with isLock | ⟨-, rfl⟩
    · exact inv.genuine raw other isLock isToken
    · rw [format.readToken_body] at isToken
      rw [Option.some.inj isToken]
  stale other raw isStale := by
    have still : state.isStale format raw = true := by
      by_cases same : other = call
      · subst same
        rcases moved.stale raw (by simpa using isStale) with isStale | isStale
        · exact inv.stale other raw isStale
        · exact isStale
      · rw [enter_other same, perform_phase] at isStale
        exact inv.stale other raw isStale
    simpa [State.isStale, State.enter] using still
  claimed owner raw isClaimed := by
    by_cases same : owner = call
    · subst same
      refine ⟨by simpa [State.enter] using live, fun isLock => ?_⟩
      rcases moved.claimed raw (by simpa using isClaimed) with isClaimed | rfl
      · exact inv.claim_kept moved isClaimed
          (inv.not_returned moved (Phase.seen_of_claimed isClaimed) isLock)
      · exact Function.update_self ..
    · rw [enter_other same, perform_phase] at isClaimed
      refine ⟨by simpa [State.enter] using (inv.claimed owner raw isClaimed).1, fun isLock => ?_⟩
      exact inv.claim_kept moved isClaimed
        (inv.not_returned moved (Phase.seen_of_claimed isClaimed) isLock)
  claims name claim isClaim := by
    rcases claims_of_perform isClaim with ⟨isClaim, noUnlink⟩ | ⟨rfl, rfl⟩
    · obtain ⟨owner, raw, isClaimed, rfl, rfl⟩ := inv.claims name claim isClaim
      refine ⟨owner, raw, ?_, rfl, rfl⟩
      by_cases same : owner = call
      · subst same
        rcases moved.unclaimed raw isClaimed with isClaimed | ⟨-, isUnlink⟩
        · simpa using isClaimed
        · exact absurd isUnlink noUnlink
      · rwa [enter_other same, perform_phase]
    · obtain ⟨seen, -, rfl, -, rfl⟩ := moved.linkClaim name rfl
      exact ⟨call, seen, by simp [Phase.claimed], rfl, rfl⟩
  knows other := by
    by_cases same : other = call
    · subst same
      rw [enter_self]
      exact inv.knows_moved moved
    · rw [enter_other same, perform_phase]
      exact inv.knows_kept live moved same
  temps other living links := by
    have before : state.alive (format.pid other) = true := by simpa [State.enter] using living
    by_cases same : other = call
    · subst same
      rw [enter_self] at links
      rw [moved.links links]
      exact List.mem_insert_self
    · rw [enter_other same, perform_phase] at links
      have member := inv.temps other before links
      cases action with
      | writeTemp => exact List.mem_insert_of_mem member
      | unlinkTemp name =>
        refine List.mem_filter.2 ⟨member, ?_⟩
        rcases moved.unlinkTemp name rfl with ⟨rfl, -⟩ | dead
        · simpa using same
        · have distinct : other ≠ name := by
            rintro rfl
            rw [before] at dead
            cases dead
          simpa using distinct
      | _ => exact member

end Preservation

theorem Inv.mutualExclusion (inv : Inv format state) : state.MutualExclusion format := by
  have owned {call : Call} (holds : state.Holds format call) :
      state.lock = some (format.body call) := by
    refine inv.owned call holds.1 ?_
    rcases holds.2 with isPhase | isPhase <;> simp [isPhase, Phase.Owns]
  intro first second isFirst isSecond
  exact format.body_injective (Option.some.inj ((owned isFirst).symm.trans (owned isSecond)))

section Death

variable [DecidableEq Pid] {pid : Pid}

theorem alive_of_die {other : Pid}
    (living : Function.update state.alive pid false other = true) : state.alive other = true := by
  by_cases same : other = pid
  · subst same
    simp at living
  · rwa [Function.update_of_ne same] at living

/-- A process that dies makes contents stale, and holds no claim. -/
theorem Inv.die (inv : Inv format state)
    (unclaimed : ∀ call, format.pid call = pid → (state.phase call).claimed = none) :
    Inv format { state with alive := Function.update state.alive pid false } where
  owned call living owns := inv.owned call (alive_of_die living) owns
  fresh := inv.fresh
  genuine := inv.genuine
  stale call raw isStale := by
    have still := inv.stale call raw isStale
    unfold State.isStale at still ⊢
    split
    · rfl
    next found isPid =>
      simp only [isPid, Bool.not_eq_true'] at still ⊢
      by_cases same : found = pid
      · rw [same, Function.update_self]
      · rw [Function.update_of_ne same, still]
  claimed call raw isClaimed := by
    have distinct : format.pid call ≠ pid := by
      intro same
      rw [unclaimed call same] at isClaimed
      cases isClaimed
    obtain ⟨living, isClaim⟩ := inv.claimed call raw isClaimed
    exact ⟨(Function.update_of_ne distinct ..).trans living, isClaim⟩
  claims := inv.claims
  knows call := by
    have known := inv.knows call
    generalize state.phase call = phase at known
    cases phase <;> exact known
  temps call living links := inv.temps call (alive_of_die living) links

end Death

/-- The lock can be had by this call: no live process is in the lock file, and no other call has
claimed the content of the lock file without unlinking the claim again. -/
structure Ready (format : LockFormat Pid Call Text Name) (call : Call)
    (state : State Pid Call Text Name) : Prop where
  inv : Inv format state
  live : state.alive (format.pid call) = true
  dead : ∀ raw, state.lock = some raw → state.isStale format raw = true
  free : ∀ other raw, other ≠ call → (state.phase other).claimed = some raw →
    state.lock ≠ some raw

theorem Ready.perform [DecidableEq Call] [DecidableEq Name] {call : Call}
    {action : Action Call Name} {goes : Phase Call Text} (ready : Ready format call state)
    (moved : Moved format state call action goes)
    (noLink : action ≠ .linkLock) :
    Ready format call ((state.perform format call action).enter call goes) where
  inv := ready.inv.perform_enter ready.live moved
  live := by simpa [State.enter] using ready.live
  dead raw isLock := by
    rcases lock_of_perform isLock with isLock | ⟨isLink, -⟩
    · simpa [State.isStale, State.enter] using ready.dead raw isLock
    · exact absurd isLink noLink
  free other raw distinct isClaimed isLock := by
    rw [enter_other distinct, perform_phase] at isClaimed
    rcases lock_of_perform isLock with isLock | ⟨isLink, -⟩
    · exact ready.free other raw distinct isClaimed isLock
    · exact noLink isLink

/-- The claim file of the content of the lock file is free for the call. -/
theorem Ready.unclaimed {call : Call} (ready : Ready format call state) {raw : Text} (isLock : state.lock = some raw)
    (notClaimed : (state.phase call).claimed = none) :
    state.claims (format.claimName raw) = none := by
  cases isClaim : state.claims (format.claimName raw) with
  | none => rfl
  | some claim =>
    obtain ⟨owner, claimed, isClaimed, same, -⟩ := ready.inv.claims _ _ isClaim
    obtain rfl := format.claimName_injective same
    refine absurd isLock (ready.free owner claimed ?_ isClaimed)
    rintro rfl
    rw [notClaimed] at isClaimed
    cases isClaimed

/-! ### Runs -/

variable [DecidableEq Pid] [DecidableEq Call] [DecidableEq Text] [DecidableEq Name]

theorem Inv.step (inv : Inv format state) (step : Step format state after) : Inv format after := by
  rcases step.cases with ⟨call, action, goes, live, moved, rfl⟩ | ⟨pid, unclaimed, rfl⟩
  · exact inv.perform_enter live moved
  · exact inv.die unclaimed

theorem Reachable.inv (reachable : Reachable format state) : Inv format state := by
  obtain ⟨start, initial, run⟩ := reachable
  induction run with
  | refl => exact inv_of_initial initial
  | tail _ step inductionHypothesis => exact inductionHypothesis.step step

/-! ### Running alone -/

section Alone

variable {call : Call} {answers : Set Bool}

theorem obtains_of_step (step : ∀ late ∈ answers, ∃ next,
    state.step format (.run call false late) = some next ∧ Obtains format answers call next) :
    Obtains format answers call state := by
  intro clock answered
  obtain ⟨next, isNext, obtains⟩ := step (clock 0) (answered 0)
  obtain ⟨count, holding⟩ := obtains (fun index => clock (index + 1)) fun index => answered _
  refine ⟨count + 1, ?_⟩
  rwa [State.alone, isNext, Option.getD_some]

theorem obtains_published (live : state.alive (format.pid call) = true)
    (isPublished : state.phase call = .published) : Obtains format answers call state := by
  refine obtains_of_step fun late _ =>
    ⟨(state.perform format call (.unlinkTemp call)).enter call .holding, ?_, fun clock _ => ?_⟩
  · simp [State.step, live, State.next, isPublished]
  · exact ⟨0, enter_self⟩

namespace Ready

/-- One step of the call that runs alone, other than linking the lock file. -/
theorem advance (ready : Ready format call state) (action : Action Call Name)
    (goes : Phase Call Text) (noLink : action ≠ .linkLock)
    (moves : ∀ late ∈ answers,
      state.next format call false late (state.phase call) = some (action, goes))
    (rest : Ready format call ((state.perform format call action).enter call goes) →
      Obtains format answers call ((state.perform format call action).enter call goes)) :
    Obtains format answers call state := by
  refine obtains_of_step fun late answered => ⟨_, ?_, rest ?_⟩
  · rw [State.step, if_pos ready.live, moves late answered]
    rfl
  · exact ready.perform (moved_of_next (fun faulty => absurd faulty Bool.false_ne_true) (moves late answered)) noLink

theorem linking_free (ready : Ready format call state) (isLinking : state.phase call = .linking)
    (isFree : state.lock = none) : Obtains format answers call state := by
  have member := ready.inv.temps call ready.live (by simp [isLinking, Phase.Links])
  refine obtains_of_step fun late _ =>
    ⟨(state.perform format call .linkLock).enter call .published, ?_, ?_⟩
  · simp [State.step, ready.live, State.next, isLinking, isFree, member]
  · exact obtains_published (by simpa [State.enter] using ready.live) enter_self

theorem writing_free (ready : Ready format call state) (isWriting : state.phase call = .writing)
    (isFree : state.lock = none) : Obtains format answers call state :=
  ready.advance .writeTemp .linking nofun (by simp [isWriting, State.next])
    fun ready => ready.linking_free enter_self isFree

/-- The call that has claimed the content of the lock file removes it, and tries again. -/
theorem removing (ready : Ready format call state) {raw : Text}
    (isRemoving : state.phase call = .removing raw) : Obtains format answers call state :=
  ready.advance .unlinkLock (.unclaiming raw true) nofun (by simp [isRemoving, State.next])
    fun ready => ready.advance (.unlinkClaim (format.claimName raw)) (.clearing true) nofun
      (by simp [State.next, Action.caught])
    fun ready => ready.advance (.unlinkTemp call) .writing nofun
      (by simp [State.next, Action.caught])
    fun ready => ready.writing_free enter_self rfl

theorem claiming_lock (ready : Ready format call state) {raw : Text}
    (isClaiming : state.phase call = .claiming raw) (isLock : state.lock = some raw) :
    Obtains format answers call state := by
  have member := ready.inv.temps call ready.live (by simp [isClaiming, Phase.Links])
  have isFree := ready.unclaimed isLock (by simp [isClaiming, Phase.claimed])
  exact ready.advance (.linkClaim (format.claimName raw)) (.rereading raw) nofun
      (by simp [isClaiming, State.next, member, isFree])
    fun ready => ready.advance .keep (.removing raw) nofun
      (by simp [State.next, State.perform, State.enter, isLock])
    fun ready => ready.removing enter_self

theorem writingClaim_lock (ready : Ready format call state) {raw : Text}
    (isWriting : state.phase call = .writingClaim raw) (isLock : state.lock = some raw) :
    Obtains format answers call state :=
  ready.advance .writeTemp (.claiming raw) nofun (by simp [isWriting, State.next])
    fun ready => ready.claiming_lock enter_self isLock

theorem reading (ready : Ready format call state) (isReading : state.phase call = .reading) :
    Obtains format answers call state := by
  cases isLock : state.lock with
  | none =>
    exact ready.advance .keep .writing nofun (by simp [isReading, State.next, isLock])
      fun ready => ready.writing_free enter_self isLock
  | some raw =>
    have isStale := ready.dead raw isLock
    exact ready.advance .keep (.judging raw) nofun (by simp [isReading, State.next, isLock])
      fun ready => ready.advance .keep (.writingClaim raw) nofun
        (by simp [State.next, ready.dead raw isLock])
      fun ready => ready.writingClaim_lock enter_self isLock

theorem refused (ready : Ready format call state) (isRefused : state.phase call = .refused) :
    Obtains format answers call state :=
  ready.advance (.unlinkTemp call) .reading nofun (by simp [isRefused, State.next, Action.caught])
    fun ready => ready.reading enter_self

theorem linking (ready : Ready format call state) (isLinking : state.phase call = .linking) :
    Obtains format answers call state := by
  have member := ready.inv.temps call ready.live (by simp [isLinking, Phase.Links])
  cases isLock : state.lock with
  | none => exact ready.linking_free isLinking isLock
  | some raw =>
    exact ready.advance .keep .refused nofun (by simp [isLinking, State.next, isLock, member])
      fun ready => ready.refused enter_self

theorem writing (ready : Ready format call state) (isWriting : state.phase call = .writing) :
    Obtains format answers call state :=
  ready.advance .writeTemp .linking nofun (by simp [isWriting, State.next])
    fun ready => ready.linking enter_self

theorem reaping (ready : Ready format call state) {names : List Call}
    (isReaping : state.phase call = .reaping names) : Obtains format answers call state := by
  induction names generalizing state with
  | nil =>
    exact ready.advance .keep .writing nofun (by simp [isReaping, State.next])
      fun ready => ready.writing enter_self
  | cons name names inductionHypothesis =>
    cases living : state.alive (format.pid name) with
    | true =>
      exact ready.advance .keep (.reaping names) nofun (by simp [isReaping, State.next, living])
        fun ready => inductionHypothesis ready enter_self
    | false =>
      exact ready.advance (.unlinkTemp name) (.reaping names) nofun
        (by simp [isReaping, State.next, living])
        fun ready => inductionHypothesis ready enter_self

theorem listing (ready : Ready format call state) (isListing : state.phase call = .listing) :
    Obtains format answers call state :=
  ready.advance .keep (.reaping state.temps) nofun (by simp [isListing, State.next])
    fun ready => ready.reaping enter_self

section Patient

/-! While its deadline has not passed, a call that runs alone comes back to the head of the loop
from wherever it is. -/

theorem expiring (ready : Ready format call state) (isExpiring : state.phase call = .expiring) :
    Obtains format {false} call state :=
  ready.advance .keep .writing nofun (by simp [isExpiring, State.next])
    fun ready => ready.writing enter_self

theorem clearing (ready : Ready format call state) {won : Bool}
    (isClearing : state.phase call = .clearing won) : Obtains format {false} call state := by
  cases won with
  | true =>
    exact ready.advance (.unlinkTemp call) .writing nofun
      (by simp [isClearing, State.next, Action.caught])
      fun ready => ready.writing enter_self
  | false =>
    exact ready.advance (.unlinkTemp call) .expiring nofun
      (by simp [isClearing, State.next, Action.caught])
      fun ready => ready.expiring enter_self

theorem unclaiming (ready : Ready format call state) {raw : Text} {won : Bool}
    (isUnclaiming : state.phase call = .unclaiming raw won) :
    Obtains format {false} call state :=
  ready.advance (.unlinkClaim (format.claimName raw)) (.clearing won) nofun
    (by simp [isUnclaiming, State.next, Action.caught])
    fun ready => ready.clearing enter_self

theorem rereading (ready : Ready format call state) {raw : Text}
    (isRereading : state.phase call = .rereading raw) : Obtains format {false} call state := by
  by_cases isLock : state.lock = some raw
  · exact ready.advance .keep (.removing raw) nofun (by simp [isRereading, State.next, isLock])
      fun ready => ready.removing enter_self
  · exact ready.advance .keep (.unclaiming raw true) nofun
      (by simp [isRereading, State.next, isLock])
      fun ready => ready.unclaiming enter_self

theorem reapingClaim (ready : Ready format call state) {raw : Text}
    (isReaping : state.phase call = .reapingClaim raw) : Obtains format {false} call state :=
  ready.advance (.unlinkClaim (format.claimName raw)) (.clearing false) nofun
    (by simp [isReaping, State.next, Action.caught])
    fun ready => ready.clearing enter_self

theorem judgingClaim (ready : Ready format call state) {raw claim : Text}
    (isJudging : state.phase call = .judgingClaim raw claim) :
    Obtains format {false} call state := by
  cases isStale : state.isStale format claim with
  | true =>
    exact ready.advance .keep (.reapingClaim raw) nofun (by simp [isJudging, State.next, isStale])
      fun ready => ready.reapingClaim enter_self
  | false =>
    exact ready.advance .keep (.clearing false) nofun (by simp [isJudging, State.next, isStale])
      fun ready => ready.clearing enter_self

theorem readingClaim (ready : Ready format call state) {raw : Text}
    (isReading : state.phase call = .readingClaim raw) : Obtains format {false} call state := by
  cases isClaim : state.claims (format.claimName raw) with
  | none =>
    exact ready.advance .keep (.clearing false) nofun (by simp [isReading, State.next, isClaim])
      fun ready => ready.clearing enter_self
  | some claim =>
    exact ready.advance .keep (.judgingClaim raw claim) nofun
      (by simp [isReading, State.next, isClaim])
      fun ready => ready.judgingClaim enter_self

theorem claiming (ready : Ready format call state) {raw : Text}
    (isClaiming : state.phase call = .claiming raw) : Obtains format {false} call state := by
  have member := ready.inv.temps call ready.live (by simp [isClaiming, Phase.Links])
  cases isClaim : state.claims (format.claimName raw) with
  | none =>
    exact ready.advance (.linkClaim (format.claimName raw)) (.rereading raw) nofun
      (by simp [isClaiming, State.next, isClaim, member])
      fun ready => ready.rereading enter_self
  | some claim =>
    exact ready.advance .keep (.readingClaim raw) nofun
      (by simp [isClaiming, State.next, isClaim, member])
      fun ready => ready.readingClaim enter_self

theorem writingClaim (ready : Ready format call state) {raw : Text}
    (isWriting : state.phase call = .writingClaim raw) : Obtains format {false} call state :=
  ready.advance .writeTemp (.claiming raw) nofun (by simp [isWriting, State.next])
    fun ready => ready.claiming enter_self

theorem judging (ready : Ready format call state) {raw : Text}
    (isJudging : state.phase call = .judging raw) : Obtains format {false} call state := by
  cases isStale : state.isStale format raw with
  | true =>
    exact ready.advance .keep (.writingClaim raw) nofun (by simp [isJudging, State.next, isStale])
      fun ready => ready.writingClaim enter_self
  | false =>
    exact ready.advance .keep .expiring nofun (by simp [isJudging, State.next, isStale])
      fun ready => ready.expiring enter_self

end Patient

/-- Before it has read the lock file, a call that runs alone obtains the lock whatever the clock
says. -/
theorem obtains_of_begun (ready : Ready format call state) (begun : (state.phase call).Begun) :
    Obtains format answers call state := by
  cases isPhase : state.phase call with
  | listing => exact ready.listing isPhase
  | reaping names => exact ready.reaping isPhase
  | writing => exact ready.writing isPhase
  | linking => exact ready.linking isPhase
  | refused => exact ready.refused isPhase
  | reading => exact ready.reading isPhase
  | _ => simp [isPhase, Phase.Begun] at begun

theorem obtains_of_acquiring (ready : Ready format call state)
    (acquiring : (state.phase call).Acquiring) : Obtains format {false} call state := by
  cases isPhase : state.phase call with
  | judging raw => exact ready.judging isPhase
  | writingClaim raw => exact ready.writingClaim isPhase
  | claiming raw => exact ready.claiming isPhase
  | rereading raw => exact ready.rereading isPhase
  | removing raw => exact ready.removing isPhase
  | unclaiming raw won => exact ready.unclaiming isPhase
  | clearing won => exact ready.clearing isPhase
  | readingClaim raw => exact ready.readingClaim isPhase
  | judgingClaim raw claim => exact ready.judgingClaim isPhase
  | reapingClaim raw => exact ready.reapingClaim isPhase
  | expiring => exact ready.expiring isPhase
  | idle => simp [isPhase, Phase.Acquiring] at acquiring
  | published | failing | holding | releasing | dropping | released | failed =>
    simp [isPhase, Phase.Acquiring, Phase.Unpublished] at acquiring
  | _ => exact ready.obtains_of_begun (by simp [isPhase, Phase.Begun])

end Ready

end Alone

/-! ### What the lock guarantees -/

theorem Inv.unlinksOwn (inv : Inv format state) : state.UnlinksOwn format := by
  intro event after raw allowed step isLock gone
  cases event with
  | start call =>
    obtain ⟨-, rfl⟩ := by simpa [State.step] using step
    exact absurd isLock gone
  | release call =>
    obtain ⟨-, rfl⟩ := by simpa [State.step] using step
    exact absurd isLock gone
  | die pid =>
    obtain rfl := by simpa [State.step] using step
    exact absurd isLock gone
  | run call fault late =>
    obtain ⟨live, action, goes, moves, rfl⟩ := by simpa [State.step] using step
    have moved := moved_of_next allowed moves
    have isUnlink : action = .unlinkLock := by
      by_contra noUnlink
      by_cases isLink : action = .linkLock
      · simp [(moved.linkLock isLink).2.1] at isLock
      · exact gone ((perform_lock isLink noUnlink).trans isLock)
    refine ⟨call, fault, late, rfl, by rw [isUnlink]; rfl, ?_⟩
    rcases moved.unlinkLock isUnlink with ⟨seen, isRemoving, -⟩ | ⟨isDropping, -⟩
    · obtain rfl := Option.some.inj ((inv.lock_of_removing isRemoving).symm.trans isLock)
      have isClaimed : (state.phase call).claimed = some seen := by rw [isRemoving]; rfl
      exact .inr ⟨isRemoving, inv.stale call seen (Phase.stale_of_claimed isClaimed),
        (inv.claimed call seen isClaimed).2 isLock⟩
    · have isOwn := inv.owned call live (by simp [isDropping, Phase.Owns])
      exact .inl ⟨isDropping, Option.some.inj (isLock.symm.trans isOwn)⟩

theorem Inv.publishesNew (inv : Inv format state) : state.PublishesNew format := by
  intro event after raw allowed step before isLock
  rcases Step.cases ⟨event, allowed, step⟩ with ⟨call, action, goes, -, moved, rfl⟩ | ⟨pid, -, rfl⟩
  · rcases lock_of_perform isLock with isLock | ⟨isLink, rfl⟩
    · exact absurd isLock before
    · obtain ⟨isLinking, isFree, -⟩ := moved.linkLock isLink
      exact ⟨isFree, (inv.fresh call (by simp [isLinking, Phase.Unpublished])).2⟩
  · exact absurd isLock before

theorem Inv.obtainedAlone (inv : Inv format state) : state.ObtainedAlone format := by
  intro call live dead free
  have ready : Ready format call state := ⟨inv, live, dead, free⟩
  exact ⟨ready.obtains_of_begun, ready.obtains_of_acquiring⟩

/-- In every state of every run at most one live call holds the lock, every unlink of the lock
file removes the caller's own token or exactly the stale content that it read and claimed, what is
published is new, and a call that runs alone obtains a lock that nobody alive holds or is taking
over. -/
theorem acquirePidLock_exclusive (reachable : Reachable format state) :
    state.MutualExclusion format ∧ state.UnlinksOwn format ∧ state.PublishesNew format ∧
      state.ObtainedAlone format :=
  ⟨reachable.inv.mutualExclusion, reachable.inv.unlinksOwn, reachable.inv.publishesNew,
    reachable.inv.obtainedAlone⟩

/-! ### A takeover under way -/

theorem Reachable.step (reachable : Reachable format state) {event : Event Pid Call}
    (allowed : state.Allowed format event) :
    Reachable format ((state.step format event).getD state) := by
  cases isStep : state.step format event with
  | none => exact reachable
  | some after =>
    obtain ⟨start, initial, run⟩ := reachable
    exact ⟨start, initial, run.tail ⟨event, allowed, isStep⟩⟩

/-- A format of four bare facts: a text is the token that it names, if it names one, and the pid
of a call is its token. -/
def plain : LockFormat Nat Nat (Option Nat) (Option Nat) where
  pid := id
  body := some
  readPid := id
  readToken := id
  claimName := id
  readPid_body _ := rfl
  readToken_body _ := rfl
  claimName_injective := Function.injective_id

/-- A lock file that names no process, as a crash of an older program may leave it. -/
def garbled : State Nat Nat (Option Nat) (Option Nat) where
  lock := some none
  claims _ := none
  temps := []
  alive _ := true
  phase _ := .idle

/-- A call starts and takes this many steps. -/
def State.begin (state : State Nat Nat (Option Nat) (Option Nat)) (call : Nat) :
    Nat → State Nat Nat (Option Nat) (Option Nat)
  | 0 => (state.step plain (.start call)).getD state
  | count + 1 =>
      let before := state.begin call count
      (before.step plain (.run call false false)).getD before

theorem garbled_reachable : Reachable plain garbled :=
  ⟨garbled, ⟨fun _ => rfl, fun _ => rfl, by rintro raw call ⟨⟩; exact nofun⟩, .refl⟩

theorem begin_reachable {state : State Nat Nat (Option Nat) (Option Nat)}
    (reachable : Reachable plain state) (call count : Nat) :
    Reachable plain (state.begin call count) := by
  induction count with
  | zero => exact reachable.step trivial
  | succ count inductionHypothesis =>
    exact inductionHypothesis.step (fun faulty => absurd faulty Bool.false_ne_true)

/-- A call that takes over the garbled lock file alone comes to hold it. -/
theorem acquirePidLock_exclusive_garbled : Obtains plain Set.univ 1 (garbled.begin 1 0) :=
  ((acquirePidLock_exclusive (begin_reachable garbled_reachable 1 0)).2.2.2 1 rfl
    (by rintro raw ⟨⟩; rfl)
    (by
      intro other raw distinct isClaimed
      have isIdle : (garbled.begin 1 0).phase other = .idle := enter_other distinct
      rw [isIdle] at isClaimed
      cases isClaimed)).1 trivial

/-- A second call while the first has won the claim file and not yet unlinked the lock file. -/
def contested : State Nat Nat (Option Nat) (Option Nat) :=
  (garbled.begin 0 9).begin 1 0

/-- Where the second call can be while the first does not step. -/
def Phase.Waits : Phase Nat (Option Nat) → Prop
  | .judging seen | .writingClaim seen | .claiming seen | .readingClaim seen => seen = none
  | .judgingClaim _ claim => claim = some 0
  | .clearing won => won = false
  | .listing | .reaping _ | .writing | .linking | .failing | .refused | .reading | .expiring
  | .failed => True
  | _ => False

structure Blocked (state : State Nat Nat (Option Nat) (Option Nat)) : Prop where
  lock : state.lock = some none
  claim : state.claims none = some (some 0)
  alive : state.alive = fun _ => true
  waits : (state.phase 1).Waits

theorem Blocked.next {state : State Nat Nat (Option Nat) (Option Nat)} (blocked : Blocked state)
    {late : Bool} {action : Action Nat (Option Nat)} {goes : Phase Nat (Option Nat)}
    (moved : state.next plain 1 false late (state.phase 1) = some (action, goes)) :
    goes.Waits ∧ (action = .keep ∨ action = .writeTemp ∨ ∃ name, action = .unlinkTemp name) := by
  obtain ⟨isLock, isClaim, isAlive, waits⟩ := blocked
  have isName (raw : Option Nat) : plain.claimName raw = raw := rfl
  have notStale : state.isStale plain (some 0) = false := by simp [State.isStale, plain, isAlive]
  revert moved waits
  generalize state.phase 1 = phase
  fun_cases State.next plain state 1 false late phase <;> grind [Phase.Waits, Action.caught]

theorem Blocked.step {state : State Nat Nat (Option Nat) (Option Nat)} (blocked : Blocked state)
    (late : Bool) : Blocked ((state.step plain (.run 1 false late)).getD state) := by
  cases isMove : state.next plain 1 false late (state.phase 1) with
  | none => simpa [State.step, isMove] using blocked
  | some move =>
    obtain ⟨action, goes⟩ := move
    obtain ⟨waits, isKept⟩ := blocked.next isMove
    have isStep : (state.step plain (.run 1 false late)).getD state =
        (state.perform plain 1 action).enter 1 goes := by
      simp [State.step, isMove, blocked.alive]
    rw [isStep]
    rcases isKept with rfl | rfl | ⟨name, rfl⟩ <;>
      exact ⟨blocked.lock, blocked.claim, blocked.alive, by rwa [enter_self]⟩

theorem Blocked.alone {state : State Nat Nat (Option Nat) (Option Nat)} (blocked : Blocked state)
    (clock : Nat → Bool) (count : Nat) : Blocked (state.alone plain 1 clock count) := by
  induction count generalizing state clock with
  | zero => exact blocked
  | succ count inductionHypothesis => exact inductionHypothesis (blocked.step _) _

/-- Running alone, the second call never obtains the lock, though no live process holds it. -/
theorem acquirePidLock_contested : ¬ ∀ state, Reachable plain state →
    (∀ raw, state.lock = some raw → state.isStale plain raw = true) →
    ∀ call, state.alive (plain.pid call) = true → state.phase call = .listing →
      Obtains plain {false} call state := by
  intro alone
  have blocked : Blocked contested := ⟨rfl, rfl, rfl, trivial⟩
  have stale : ∀ raw, contested.lock = some raw → contested.isStale plain raw = true := by
    rintro raw ⟨⟩
    rfl
  have reachable := begin_reachable (begin_reachable garbled_reachable 0 9) 1 0
  obtain ⟨count, holding⟩ := alone contested reachable stale 1 rfl rfl (fun _ => false) fun _ => rfl
  have still := (blocked.alone (fun _ => false) count).waits
  rw [holding] at still
  exact still

end AiSwitcher.PidLock
