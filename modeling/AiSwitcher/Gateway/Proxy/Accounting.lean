/-
This file proves that every request that passed authentication is tried safely and accounted once.
Whatever is answered, the proxy replies after finitely many rounds, a body that cannot be
sent twice is sent once at most, a member that was tried is tried again only after a wait
for a short hold, and a request that has its reply has its row; the row of a reply that is streamed is
left to the stream.

A wait starts the pool from the top, so the members that were excluded before may be tried again.
-/

import AiSwitcher.Gateway.Proxy.Passing

namespace AiSwitcher.Gateway.Proxy

open JavaScript Interrupted Program

/-! ### Tries and waits -/

/-- The members tried since the last wait. -/
def recent : List Moment → List String
  | [] => []
  | .tried name :: rest => name :: recent rest
  | .waited :: _ => []

def waitsOf (trace : List Moment) : Nat := trace.count .waited

/-- No member is tried twice without a wait in between. -/
def Distinct : List Moment → Prop
  | [] => True
  | .tried name :: rest => name ∉ recent rest ∧ Distinct rest
  | .waited :: rest => Distinct rest

theorem mem_recent {between earlier : List Moment} {name : String} (noWait : .waited ∉ between) :
    name ∈ recent (between ++ .tried name :: earlier) := by
  induction between with
  | nil => exact List.mem_cons_self
  | cons moment rest inductionHypothesis =>
    cases moment with
    | tried other =>
      exact List.mem_cons_of_mem _ (inductionHypothesis fun member => noWait (.tail _ member))
    | waited => exact absurd List.mem_cons_self noWait

theorem Distinct.waited_mem {later between earlier : List Moment} {name : String}
    (distinct : Distinct (later ++ .tried name :: (between ++ .tried name :: earlier))) :
    .waited ∈ between := by
  induction later with
  | nil => exact by_contra fun noWait => distinct.1 (mem_recent noWait)
  | cons moment rest inductionHypothesis =>
    cases moment with
    | tried other => exact inductionHypothesis distinct.2
    | waited => exact inductionHypothesis distinct

/-! ### Safe journals -/

namespace Journal

/-- What holds of the journal at every moment of a request. -/
structure Safe (journal : Journal) : Prop where
  sound : journal.Sound
  once : journal.streamed ≤ 1
  distinct : Distinct journal.trace
  waits : waitsOf journal.trace ≤ SHORT_HOLD_MAX_WAITS

/-- The request has no row yet. -/
structure Unanswered (journal : Journal) : Prop where
  safe : journal.Safe
  recorded : journal.recorded = false

/-- The request has its row. -/
structure Answered (journal : Journal) : Prop where
  safe : journal.Safe
  recorded : journal.recorded = true

theorem unanswered_new : Unanswered new := ⟨⟨rfl, Nat.zero_le _, trivial, Nat.zero_le _⟩, rfl⟩

theorem Answered.rows {journal : Journal} (answered : journal.Answered) :
    journal.rows.length = 1 := by
  rw [answered.safe.sound, answered.recorded, if_pos rfl]

theorem Unanswered.rows {journal : Journal} (unanswered : journal.Unanswered) :
    journal.rows = [] := by
  have none := unanswered.safe.sound
  rw [Sound, unanswered.recorded, if_neg Bool.false_ne_true] at none
  exact List.eq_nil_of_length_eq_zero none

theorem Safe.record {journal : Journal} (safe : journal.Safe) (row : UsageRow) :
    (journal.record row).Answered := by
  obtain ⟨sound, recorded⟩ := safe.sound.record row
  have same : (journal.record row).streamed = journal.streamed ∧
      (journal.record row).trace = journal.trace := by
    unfold Journal.record
    split <;> exact ⟨rfl, rfl⟩
  exact ⟨⟨sound, same.1 ▸ safe.once, same.2 ▸ safe.distinct, same.2 ▸ safe.waits⟩, recorded⟩

/-- The journal after a wait. -/
def wait (journal : Journal) : Journal := { journal with trace := .waited :: journal.trace }

theorem Unanswered.wait {journal : Journal} (unanswered : journal.Unanswered)
    (few : waitsOf journal.trace < SHORT_HOLD_MAX_WAITS) : journal.wait.Unanswered := by
  refine ⟨⟨unanswered.safe.sound, unanswered.safe.once, unanswered.safe.distinct, ?_⟩,
    unanswered.recorded⟩
  rw [waitsOf, Journal.wait, List.count_cons_self]
  exact few

end Journal

section Requests

variable {Native : Type} {runtime : ProxyRuntime Native} {app : App} {members : List String}
  {journal : Journal}

/-- Whatever is answered, the journal stays safe and the program ends in `post`. -/
abbrev Safely (members : List String) (journal : Journal) {Result : Type}
    (program : Handling Result) (post : Except Thrown Result → Journal → Prop) : Prop :=
  program.safe (answers members) (fun _ after => after.Safe) post journal

theorem safely_calm_bind {First Result : Type} {program : Handling First}
    {next : First → Handling Result} {holds : First → Prop}
    {post : Except Thrown Result → Journal → Prop} (safe : journal.Safe)
    (reads : Reads (answers members) program journal holds)
    (goesOn : ∀ result, holds result → Safely members journal (next result) post)
    (failed : ∀ error, post (.error error) journal) :
    Safely members journal (program >>= next) post :=
  safe_reads_bind reads safe goesOn failed

/-! ### Replies -/

/-- A reply with its row, or one that is streamed. -/
def Accounted (journal : Journal) : Reply Native → Prop
  | .streaming _ => journal.Unanswered
  | .error .. | .native _ | .empty .. => journal.Answered

/-- A program that replies. -/
def Replies (outcome : Except Thrown (Reply Native)) (after : Journal) : Prop :=
  ∃ reply, outcome = .ok reply ∧ Accounted after reply

theorem safely_recordUnanswered {Result : Type} {next : Handling Result}
    {post : Except Thrown Result → Journal → Prop} (unanswered : journal.Unanswered)
    (identity : String) (status : RowStatus) (httpStatus : Nat) (model : Option String)
    (goesOn : ∀ after : Journal, after.Answered → Safely members after next post) :
    Safely members journal
      (recordUnanswered app identity status httpStatus model >>= fun _ => next) post := by
  refine safe_perform_bind fun answer after answered => ?_
  obtain rfl : after = _ := answered
  have row := unanswered.safe.record (rowFor app identity status httpStatus none false model)
  exact ⟨row.safe, goesOn _ row⟩

theorem safely_reject (unanswered : journal.Unanswered) (identity : String) (status : Nat)
    (message : String) (model : Option String) :
    Safely members journal (reject app identity status message model : Handling (Reply Native))
      Replies :=
  safely_recordUnanswered unanswered _ _ _ _ fun _ answered => ⟨_, rfl, answered⟩

theorem safely_clientAborted (unanswered : journal.Unanswered) (identity : String)
    (model : Option String) :
    Safely members journal (clientAborted app identity model : Handling (Reply Native)) Replies :=
  safely_recordUnanswered unanswered _ _ _ _ fun _ answered => ⟨_, rfl, answered⟩

theorem safely_failedReply (unanswered : journal.Unanswered) (identity : String)
    (model : Option String) (error : Thrown) :
    Safely members journal (failedReply app identity model error : Handling (Reply Native))
      Replies := by
  refine safe_perform_bind fun gone after same => ?_
  obtain rfl : after = journal := same
  refine ⟨unanswered.safe, ?_⟩
  split
  · exact safely_clientAborted unanswered _ _
  cases error with
  | credential code provider name =>
    exact safely_recordUnanswered unanswered _ _ _ _ fun _ answered => ⟨_, rfl, answered⟩
  | refreshCooldown =>
    exact safely_recordUnanswered unanswered _ _ _ _ fun _ answered => ⟨_, rfl, answered⟩
  | notRefreshable =>
    exact safely_recordUnanswered unanswered _ _ _ _ fun _ answered => ⟨_, rfl, answered⟩
  | swapLock =>
    exact safely_recordUnanswered unanswered _ _ _ _ fun _ answered => ⟨_, rfl, answered⟩
  | aborted =>
    exact safely_recordUnanswered unanswered _ _ _ _ fun _ answered => ⟨_, rfl, answered⟩
  | other =>
    exact safely_recordUnanswered unanswered _ _ _ _ fun _ answered => ⟨_, rfl, answered⟩

theorem safely_aborted_bind {Result : Type} {next : Bool → Handling Result}
    {post : Except Thrown Result → Journal → Prop} (safe : journal.Safe)
    (goesOn : ∀ gone, Safely members journal (next gone) post) :
    Safely members journal (aborted >>= next) post := by
  intro request between same
  obtain rfl : between = journal := same
  refine ⟨safe, fun controller after same => ?_⟩
  obtain rfl : after = between := same
  exact ⟨safe, goesOn _⟩

theorem safely_unexpected (unanswered : journal.Unanswered) (identity : String)
    (model : Option String) :
    Safely members journal (unexpected app identity model : Handling (Reply Native)) Replies := by
  refine safely_aborted_bind unanswered.safe fun gone => ?_
  split
  · exact safely_clientAborted unanswered _ _
  · exact safely_recordUnanswered unanswered _ _ _ _ fun _ answered => ⟨_, rfl, answered⟩

/-- A reply, or what was thrown before there was one. -/
def RepliesOrThrows : Except Thrown (Reply Native) → Journal → Prop
  | .ok reply, after => Accounted after reply
  | .error _, after => after.Unanswered

theorem Replies.orThrows (outcome : Except Thrown (Reply Native)) (after : Journal)
    (replies : Replies outcome after) : RepliesOrThrows outcome after := by
  obtain ⟨reply, rfl, accounted⟩ := replies
  exact accounted

theorem safely_limitReply (unanswered : journal.Unanswered) (identity : String)
    (model : Option String) (reason : RejectReason) :
    Safely members journal (limitReply runtime app identity model reason) RepliesOrThrows := by
  have generic : Safely members journal
      (reject app identity 429 (rejectMessage app reason) model : Handling (Reply Native))
      RepliesOrThrows :=
    safe_mono Replies.orThrows _ _ (safely_reject unanswered _ _ _ _)
  unfold limitReply
  dsimp only
  split
  · exact generic
  refine safely_calm_bind unanswered.safe calm_memberUsages (fun usages _ => ?_) fun _ => unanswered
  refine safely_calm_bind unanswered.safe (calm_perform fun _ _ same => same) (fun now _ => ?_)
    fun _ => unanswered
  split
  · exact safely_recordUnanswered unanswered _ _ _ _ fun _ answered => answered
  · exact generic

theorem safely_holdReply (unanswered : journal.Unanswered) (identity : String)
    (model : Option String) :
    Safely members journal (holdReply app identity model : Handling (Option (Reply Native)))
      fun outcome after => match outcome with
        | .ok (some reply) => Accounted after reply
        | .ok none | .error _ => after.Unanswered := by
  refine safely_calm_bind unanswered.safe calm_heldMember (fun held _ => ?_) fun _ => unanswered
  split
  · refine safely_calm_bind unanswered.safe (calm_exhaustedUntil _) (fun limit _ => ?_)
      fun _ => unanswered
    refine safely_calm_bind unanswered.safe calm_now (fun now _ => ?_) fun _ => unanswered
    exact safely_recordUnanswered unanswered _ _ _ _ fun _ answered => answered
  · exact safely_recordUnanswered unanswered _ _ _ _ fun _ answered => answered
  · exact unanswered

theorem safely_rejectPick (unanswered : journal.Unanswered) (identity : String)
    (model : Option String) (reason : RejectReason) :
    Safely members journal (rejectPick runtime app identity model reason) RepliesOrThrows := by
  unfold rejectPick
  split
  · refine safe_bind _ _ (safe_mono ?_ _ _ (safely_holdReply unanswered identity model))
    intro outcome after ended
    match outcome, ended with
    | .ok (some reply), accounted => exact accounted
    | .ok none, unanswered => exact safely_limitReply unanswered _ _ _
    | .error error, unanswered => exact unanswered
  · exact safely_limitReply unanswered _ _ _

/-! ### The body -/

/-- The body, or the reply to a request whose body could not be read. -/
def Receives (before : Journal) : Except Thrown (Reply Native ⊕ Body) → Journal → Prop
  | .ok (.inl reply), after => Accounted after reply
  | .ok (.inr _), after => after = before
  | .error _, _ => False

theorem safely_replied {program : Handling (Reply Native)}
    (safely : Safely members journal program Replies) :
    Safely members journal (program >>= fun reply => return .inl reply) (Receives journal) := by
  refine safe_bind _ _ (safe_mono ?_ _ _ safely)
  rintro outcome after ⟨reply, rfl, accounted⟩
  exact accounted

theorem safely_receive (unanswered : journal.Unanswered) (identity : String) (request : Request) :
    Safely members journal (receive app identity request : Handling (Reply Native ⊕ Body))
      (Receives journal) := by
  refine safe_andThen _ _ (safe_of_reads (calm_receiveBody request) unanswered.safe ?_)
  intro outcome _
  cases outcome with
  | ok body => exact rfl
  | error error =>
    let answer (reply : Reply Native) : Handling (Reply Native ⊕ Body) := return .inl reply
    have later : Safely members journal (aborted >>= fun gone =>
        if gone then clientAborted app identity none >>= answer
        else reject app identity 400 "request body could not be read" none >>= answer)
        (Receives journal) := by
      refine safely_aborted_bind unanswered.safe fun gone => ?_
      split
      · exact safely_replied (safely_clientAborted unanswered _ _)
      · exact safely_replied (safely_reject unanswered _ _ _ _)
    refine safely_aborted_bind unanswered.safe fun gone => ?_
    split
    · exact later
    · refine safe_perform_bind fun tick after same => ?_
      obtain rfl : journal = after := same.symm
      exact ⟨unanswered.safe, later⟩

/-! ### Waiting -/

/-- The request has waited once more. -/
structure Waited (before : Journal) (waits : Nat) (more : Nat) (after : Journal) : Prop where
  few : waits < SHORT_HOLD_MAX_WAITS
  more : more = waits + 1
  after : after = before.wait

/-- How a wait for a short hold ends, from a journal with so many waits. -/
def Waits (before : Journal) (waits : Nat) : Except Thrown (Bool × Nat) → Journal → Prop
  | .ok (true, more), after => Waited before waits more after
  | .ok (false, more), after => Waited before waits more after ∨ more = waits ∧ after = before
  | .error _, after => after = before

theorem safely_waitForShortHold (unanswered : journal.Unanswered) (waitStart : ℚ) {waits : Nat}
    (counted : waitsOf journal.trace = waits) :
    Safely members journal (waitForShortHold app waitStart waits) (Waits journal waits) := by
  refine safe_perform_bind fun gone after same => ?_
  obtain rfl : journal = after := same.symm
  refine ⟨unanswered.safe, ?_⟩
  split
  · exact .inr ⟨rfl, rfl⟩
  next goesOn =>
  have few : waits < SHORT_HOLD_MAX_WAITS := by
    by_contra many
    exact goesOn (.inr (.inl (Nat.le_of_not_lt many)))
  refine safely_calm_bind unanswered.safe calm_now (fun now _ => ?_) fun _ => rfl
  dsimp only
  split
  · exact .inr ⟨rfl, rfl⟩
  refine safely_calm_bind unanswered.safe calm_exhaustedNames (fun held _ => ?_) fun _ => rfl
  refine safely_calm_bind unanswered.safe (calm_holdsOf held) (fun holds _ => ?_) fun _ => rfl
  split
  · exact .inr ⟨rfl, rfl⟩
  refine safely_calm_bind unanswered.safe (calm_pickIdentity _) (fun picked _ => ?_) fun _ => rfl
  split
  · exact .inr ⟨rfl, rfl⟩
  refine safely_calm_bind unanswered.safe (calm_all (fun _ => calm_exhaustedUntil _) _)
    (fun times _ => ?_) fun _ => rfl
  refine safe_perform_bind fun slept after same => ?_
  obtain rfl : after = journal.wait := same
  have waited := unanswered.wait (counted ▸ few)
  refine ⟨waited.safe, fun gone last same => ?_⟩
  obtain rfl : last = journal.wait := same
  refine ⟨waited.safe, ?_⟩
  cases gone with
  | true => exact .inl ⟨few, rfl, rfl⟩
  | false => exact ⟨few, rfl, rfl⟩

/-! ### The first pick -/

/-- While a request waits for its first pick. -/
structure WaitsFirst (app : App) (members : List String) (state : Waiting) (journal : Journal) : Prop where
  unanswered : journal.Unanswered
  untried : recent journal.trace = []
  streamed : journal.streamed = 0
  waits : waitsOf journal.trace = state.waits
  picks : PicksFrom app members [] state.picked

/-- The pick, or what was thrown meanwhile. -/
def PicksFirst (app : App) (members : List String) : Except Thrown (Option Waiting) → Journal → Prop
  | .ok (some state), after => WaitsFirst app members state after
  | .ok none, _ => False
  | .error _, after => after.Unanswered

theorem Waited.waitsFirst {state : Waiting} {more : Nat} {after : Journal} {picked : Picked}
    (waited : Waited journal state.waits more after) (waiting : WaitsFirst app members state journal)
    (picks : PicksFrom app members [] picked) : WaitsFirst app members ⟨picked, more⟩ after := by
  obtain ⟨few, rfl, rfl⟩ := waited
  refine ⟨waiting.unanswered.wait (waiting.waits ▸ few), rfl, waiting.streamed, ?_, picks⟩
  rw [waitsOf, Journal.wait, List.count_cons_self]
  exact congrArg (· + 1) waiting.waits

theorem safely_waitRound (waitStart : ℚ) (state : Waiting) (journal : Journal)
    (waiting : WaitsFirst app members state journal) :
    Safely members journal (waitRound app waitStart state)
      (Round (WaitsFirst app members) (fun state => SHORT_HOLD_MAX_WAITS - state.waits)
        (PicksFirst app members) state) := by
  unfold waitRound
  split
  · refine safe_bind _ _ (safe_mono ?_ _ _
      (safely_waitForShortHold waiting.unanswered waitStart waiting.waits))
    intro outcome after ended
    match outcome, ended with
    | .ok (true, more), waited =>
      have few := waited.few
      have isMore := waited.more
      have goesOn (picked : Picked) (picks : PicksFrom app members [] picked) :=
        waited.waitsFirst waiting picks
      have none : after.Unanswered := (goesOn (.reject .noHeadroom) fun _ _ same => nomatch same).unanswered
      refine safely_calm_bind none.safe calm_exhaustedNames (fun held _ => ?_) fun _ => none
      refine safely_calm_bind none.safe (pickIdentity_reads held) (fun picked picks => ?_) fun _ => none
      have picksAny : PicksFrom app members [] picked := fun isPool name same =>
        ⟨(picks isPool name same).1, List.not_mem_nil⟩
      refine ⟨goesOn picked picksAny, ?_⟩
      dsimp only
      omega
    | .ok (false, more), .inl waited => exact waited.waitsFirst waiting waiting.picks
    | .ok (false, more), .inr ⟨isMore, isAfter⟩ =>
      obtain rfl : journal = after := isAfter.symm
      obtain rfl : state.waits = more := isMore.symm
      exact waiting
    | .error error, isAfter =>
      obtain rfl : journal = after := Eq.symm isAfter
      exact waiting.unanswered
  · exact waiting

/-! ### Attempts -/

/-- A body was sent, or could not be. -/
structure Sent (body : Body) (before after : Journal) : Prop where
  unanswered : after.Unanswered
  trace : after.trace = before.trace
  streamed : body.isStream = false → after.streamed = before.streamed

/-- A member was tried. -/
structure Tried (name : String) (body : Body) (before after : Journal) : Prop where
  unanswered : after.Unanswered
  trace : after.trace = .tried name :: before.trace
  streamed : body.isStream = false → after.streamed = before.streamed

theorem sent_refl {body : Body} (unanswered : journal.Unanswered) : Sent body journal journal :=
  ⟨unanswered, rfl, fun _ => rfl⟩

theorem Journal.Unanswered.send (unanswered : journal.Unanswered) {body : Body}
    (once : body.isStream = true → journal.streamed = 0) :
    Sent body journal { journal with sends := body :: journal.sends } := by
  have safe := unanswered.safe
  cases isStream : body.isStream with
  | true =>
    refine ⟨⟨⟨safe.sound, ?_, safe.distinct, safe.waits⟩, unanswered.recorded⟩, rfl, fun isBuffered =>
      absurd (isBuffered.symm.trans isStream) Bool.false_ne_true⟩
    have none := once isStream
    rw [Journal.streamed] at none ⊢
    rw [List.filter_cons_of_pos isStream, List.length_cons, none]
  | false =>
    have same : ({ journal with sends := body :: journal.sends } : Journal).streamed =
        journal.streamed := by
      rw [Journal.streamed, List.filter_cons_of_neg (isStream ▸ Bool.false_ne_true)]
      rfl
    exact ⟨⟨⟨safe.sound, same ▸ safe.once, safe.distinct, safe.waits⟩, unanswered.recorded⟩, rfl,
      fun _ => same⟩

theorem safely_send (unanswered : journal.Unanswered) {body : Body}
    (once : body.isStream = true → journal.streamed = 0) (cred : ProviderCredential) :
    Safely members journal (send body cred) fun _ => Sent body journal := by
  refine safely_aborted_bind unanswered.safe fun gone => ?_
  split
  · exact sent_refl unanswered
  · intro answer after same
    obtain rfl : after = _ := same
    have sent := unanswered.send once
    exact ⟨sent.unanswered.safe, safe_ofExcept sent⟩

theorem Journal.Unanswered.try (unanswered : journal.Unanswered) {name : String}
    (untried : name ∉ recent journal.trace) :
    Journal.Unanswered { journal with trace := .tried name :: journal.trace } := by
  have safe := unanswered.safe
  have different : Moment.tried name ≠ .waited := nofun
  have sameWaits : waitsOf (.tried name :: journal.trace) = waitsOf journal.trace :=
    List.count_cons_of_ne different
  exact ⟨⟨safe.sound, safe.once, ⟨untried, safe.distinct⟩, sameWaits ▸ safe.waits⟩,
    unanswered.recorded⟩

/-- One attempt tries the member once, and sends a body that is a stream once at most. -/
theorem safely_attempt (unanswered : journal.Unanswered) {body : Body} {name : String}
    (untried : name ∉ recent journal.trace) (once : body.isStream = true → journal.streamed = 0) :
    Safely members journal (attempt app body name) fun _ => Tried name body journal := by
  have start := unanswered.try untried
  intro got between same
  obtain rfl : between = _ := same
  refine ⟨start.safe, safe_ofExcept_bind (fun cred _ => ?_) fun error _ => ⟨start, rfl, fun _ => rfl⟩⟩
  refine safe_bind _ _ (safe_mono ?_ _ _ (safely_send start once cred))
  intro outcome after sent
  have tried : Tried name body journal after := ⟨sent.unanswered, sent.trace, sent.streamed⟩
  have calmly {Result : Type} {program : Handling Result}
      {next : Result → Handling Response} (calm : Calm members after program)
      (goesOn : ∀ result, Safely members after (next result) fun _ => Tried name body journal) :
      Safely members after (program >>= next) fun _ => Tried name body journal :=
    safely_calm_bind tried.unanswered.safe calm (fun result _ => goesOn result) fun _ => tried
  have discards (res : Response) : Calm members after (.perform (.discard res)) :=
    calm_perform fun _ _ same => same
  match outcome with
  | .error error => exact tried
  | .ok res =>
    change Safely members after (if _ then _ else _) _
    split
    · refine calmly (reads_andThen (calm_attempt fun _ _ same => same) fun _ => calm_done _) ?_
      rintro (error | fresh)
      · dsimp only
        split
        · split
          · exact calmly (discards res) fun _ => tried
          · exact tried
        · split
          · exact tried
          · exact calmly (discards res) fun _ => tried
      · dsimp only
        split
        · exact tried
        next isBuffered =>
          have resend : Safely members after (send body fresh) fun _ => Sent body after :=
            safely_send tried.unanswered (fun isStream => absurd isStream isBuffered) fresh
          refine calmly (discards res) fun _ => safe_mono (fun _ _ again => ?_) _ _ resend
          exact ⟨again.unanswered, again.trace.trans tried.trace, fun notStream =>
            (again.streamed notStream).trans (tried.streamed notStream)⟩
    · exact tried

/-! ### Failover -/

/-- What holds when a round of the loop begins: every member tried since the last wait is among
those that are not tried again. -/
structure Trying (members : List String) (state : Failover) (journal : Journal) : Prop where
  unanswered : journal.Unanswered
  streamed : journal.streamed = 0
  recent : ∀ name ∈ recent journal.trace, name ∈ state.tried ∨ name = state.name
  waits : waitsOf journal.trace = state.waits

/-- The members that can still be tried before the next wait. -/
def untried (members : List String) (state : Failover) : List String :=
  members.filter fun name => name ∉ state.tried ∧ name ≠ state.name

/-- The rounds left at most: the untried members, and for each wait left all members and the wait. -/
def left (members : List String) (state : Failover) : Nat :=
  (SHORT_HOLD_MAX_WAITS - state.waits) * (members.length + 1) + (untried members state).length

theorem left_lt (members : List String) (state : Failover) :
    left members state < (SHORT_HOLD_MAX_WAITS + 1) * (members.length + 1) := by
  have few : (untried members state).length ≤ members.length := List.length_filter_le _ _
  have waits : (SHORT_HOLD_MAX_WAITS - state.waits) * (members.length + 1) ≤
      SHORT_HOLD_MAX_WAITS * (members.length + 1) := Nat.mul_le_mul_right _ (Nat.sub_le _ _)
  rw [left, Nat.succ_mul]
  omega

/-- A wait takes more rounds down than the members it brings back. -/
theorem left_lt_of_waited {state next : Failover} (few : state.waits < SHORT_HOLD_MAX_WAITS)
    (more : next.waits = state.waits + 1) : left members next < left members state := by
  have brought : (untried members next).length ≤ members.length := List.length_filter_le _ _
  have waits : (SHORT_HOLD_MAX_WAITS - state.waits) * (members.length + 1) =
      (SHORT_HOLD_MAX_WAITS - next.waits) * (members.length + 1) + (members.length + 1) := by
    rw [← Nat.succ_mul]
    congr 1
    omega
  rw [left, left, waits]
  omega

theorem left_lt_of_tried {state next : Failover} (same : next.waits = state.waits)
    (isMember : next.name ∈ members) (isNew : next.name ∉ state.tried ∧ next.name ≠ state.name)
    (keeps : ∀ name ∈ state.name :: state.tried, name ∈ next.tried) :
    left members next < left members state := by
  have fewer : (untried members next).length < (untried members state).length := by
    have filtered : untried members next = (untried members state).filter
        fun name => name ∉ next.tried ∧ name ≠ next.name := by
      rw [untried, untried, List.filter_filter]
      refine List.filter_congr fun name _ => ?_
      rw [Bool.eq_iff_iff, Bool.and_eq_true, decide_eq_true_eq, decide_eq_true_eq]
      refine ⟨fun later => ⟨later, fun tried => ?_, fun same => ?_⟩, And.left⟩
      · exact later.1 (keeps _ (List.mem_cons_of_mem _ tried))
      · exact later.1 (keeps _ (same ▸ List.mem_cons_self))
    rw [filtered, List.length_filter_lt_length_iff_exists]
    exact ⟨next.name, List.mem_filter.mpr ⟨isMember, decide_eq_true isNew⟩, by simp⟩
  rw [left, left, same]
  omega

/-- The attempts have ended, and the request has no row yet. -/
def Settles : Except Thrown (Option Settled) → Journal → Prop
  | .ok (some _), after | .error _, after => after.Unanswered
  | .ok none, _ => False

theorem safely_tryAgain (waitStart : ℚ) {state : Failover}
    (trying : Trying members state journal) :
    Safely members journal (tryAgain runtime app waitStart state) fun outcome after =>
      match outcome with
      | .ok (.inl next) => Trying members next after ∧ state.waits < SHORT_HOLD_MAX_WAITS ∧
          next.waits = state.waits + 1
      | .ok (.inr _) | .error _ => after.Unanswered := by
  have stays := trying.unanswered
  unfold tryAgain
  split
  · split
    · refine safe_bind _ _ (safe_mono ?_ _ _ (safely_waitForShortHold stays waitStart trying.waits))
      intro outcome after ended
      match outcome, ended with
      | .ok (true, more), ⟨few, isMore, isAfter⟩ =>
        obtain rfl := isAfter
        refine ⟨⟨stays.wait (trying.waits ▸ few), trying.streamed, fun name member => ?_, ?_⟩, few, isMore⟩
        · cases member
        · rw [waitsOf, Journal.wait, List.count_cons_self]
          exact (congrArg (· + 1) trying.waits).trans isMore.symm
      | .ok (false, more), .inl ⟨few, isMore, isAfter⟩ =>
        obtain rfl := isAfter
        exact stays.wait (trying.waits ▸ few)
      | .ok (false, more), .inr ⟨isMore, isAfter⟩ =>
        obtain rfl := isAfter
        exact stays
      | .error error, isAfter =>
        obtain rfl : journal = after := Eq.symm isAfter
        exact stays
    · exact stays
  · exact stays

/-- The next member was tried. -/
structure TriedNext (state : Failover) (name : String) (before : Journal) (next : Failover)
    (after : Journal) : Prop where
  unanswered : after.Unanswered
  trace : after.trace = .tried name :: before.trace
  streamed : after.streamed = before.streamed
  name : next.name = name
  waits : next.waits = state.waits
  keeps : state.tried ⊆ next.tried

/-- The next member was tried, or something was thrown. -/
def TriesNext (state : Failover) (name : String) (before : Journal) :
    Except Thrown Failover → Journal → Prop
  | .ok next, after => TriedNext state name before next after
  | .error _, after => after.Unanswered

theorem safely_tryNext {body : Body} (isBuffered : body.isStream = false) {state : Failover}
    {name : String} (unanswered : journal.Unanswered) (isNew : name ∉ recent journal.trace) :
    Safely members journal (tryNext runtime app body state name) (TriesNext state name journal) := by
  have once : body.isStream = true → journal.streamed = 0 := fun isStream =>
    absurd (isBuffered.symm.trans isStream) Bool.false_ne_true
  refine safe_bind _ _ (safe_andThen _ _ (safe_mono ?_ _ _ (safely_attempt unanswered isNew once)))
  intro outcome after tried
  have stays := tried.unanswered
  have done (next : Failover) (isName : next.name = name) (waits : next.waits = state.waits)
      (keeps : state.tried ⊆ next.tried) : TriedNext state name journal next after :=
    ⟨stays, tried.trace, tried.streamed isBuffered, isName, waits, keeps⟩
  have calmly {Result : Type} {program : Handling Result} {next : Result → Handling Failover}
      (calm : Calm members after program)
      (goesOn : ∀ result, Safely members after (next result) (TriesNext state name journal)) :
      Safely members after (program >>= next) (TriesNext state name journal) :=
    safely_calm_bind stays.safe calm (fun result _ => goesOn result) fun _ => stays
  have discards (res : Response) : Calm members after (.perform (.discard res)) :=
    calm_perform fun _ _ same => same
  match outcome with
  | .error error =>
    refine safely_aborted_bind stays.safe fun gone => ?_
    split
    · split
      · exact calmly (discards _) fun _ => stays
      · exact stays
    split
    · exact calmly (calm_holdCredentialFailure name error) fun _ =>
        done _ rfl rfl (List.subset_append_left _ _)
    · exact done _ rfl rfl (List.subset_append_left _ _)
  | .ok second =>
    refine calmly (calm_isQuota second) fun checked => ?_
    have goesOn : Safely members after (do
        let identity ← .perform (.canonical app.settings.provider name)
        if checked.1 then holdQuota runtime app name checked.2 else pure ()
        return { state with
          name := name, quota := checked.1, cur := some checked.2, identity := identity })
        (TriesNext state name journal) := by
      refine calmly (calm_canonical _ _) fun identity => ?_
      split
      · exact calmly (calm_holdQuota name _) fun _ => done _ rfl rfl (List.Subset.refl _)
      · exact done _ rfl rfl (List.Subset.refl _)
    dsimp only
    split
    · exact calmly (discards _) fun _ => goesOn
    · exact goesOn

/-- The state with its member among the tried ones. -/
theorem Trying.added {state : Failover} (trying : Trying members state journal) :
    Trying members { state with tried := state.tried ++ [state.name] } journal where
  unanswered := trying.unanswered
  streamed := trying.streamed
  recent := fun name member => by
    obtain tried | rfl := trying.recent name member
    · exact .inl (List.mem_append_left _ tried)
    · exact .inr rfl
  waits := trying.waits

theorem TriedNext.trying {state next : Failover} {name : String} {after : Journal}
    (tried : TriedNext state name journal next after) (trying : Trying members state journal)
    (added : state.name ∈ state.tried) : Trying members next after where
  unanswered := tried.unanswered
  streamed := tried.streamed.trans trying.streamed
  recent := fun other member => by
    rw [tried.trace] at member
    obtain rfl | member := List.mem_cons.mp member
    · exact .inr tried.name.symm
    · obtain isTried | rfl := trying.recent other member
      · exact .inl (tried.keeps isTried)
      · exact .inl (tried.keeps added)
  waits := by
    have different : Moment.tried name ≠ .waited := nofun
    rw [tried.trace, waitsOf, List.count_cons_of_ne different, tried.waits]
    exact trying.waits

theorem safely_failoverRound {body : Body} (isBuffered : body.isStream = false)
    (isPool : app.settings.target.isPool = true) (waitStart : ℚ) (state : Failover)
    (journal : Journal) (trying : Trying members state journal) :
    Safely members journal (failoverRound runtime app body waitStart state)
      (Round (Trying members) (left members) Settles state) := by
  have stays := trying.unanswered
  have added := trying.added
  have isAdded : state.name ∈ state.tried ++ [state.name] :=
    List.mem_append_right _ List.mem_cons_self
  unfold failoverRound
  split
  · refine safe_andThen _ _ (safely_calm_bind stays.safe calm_exhaustedNames (fun held _ => ?_)
      fun _ => stays)
    refine safely_calm_bind stays.safe (pickIdentity_reads _) (fun picked picks => ?_) fun _ => stays
    split
    · refine safe_mono ?_ _ _ (safely_tryAgain waitStart added)
      intro outcome after ended
      match outcome, ended with
      | .ok (.inl next), ⟨again, few, more⟩ => exact ⟨again, left_lt_of_waited few more⟩
      | .ok (.inr settled), unanswered => exact unanswered
      | .error error, unanswered => exact unanswered
    next name =>
      obtain ⟨isMember, isNew⟩ := picks isPool name rfl
      have notTried : name ∉ state.tried ++ [state.name] := fun tried =>
        isNew (List.mem_append_right _ tried)
      have notRecent : name ∉ recent journal.trace := fun member => by
        obtain tried | same := added.recent name member
        · exact notTried tried
        · exact notTried (same ▸ isAdded)
      refine safe_bind _ _ (safe_mono ?_ _ _ (safely_tryNext isBuffered stays notRecent))
      intro outcome after ended
      match outcome, ended with
      | .ok next, tried =>
        refine ⟨tried.trying added isAdded, left_lt_of_tried tried.waits ?_ ?_ fun other member => ?_⟩
        · exact tried.name ▸ isMember
        · rw [tried.name]
          exact ⟨fun isTried => notTried (List.mem_append_left _ isTried),
            fun same => notTried (same ▸ isAdded)⟩
        · obtain rfl | isTried := List.mem_cons.mp member
          · exact tried.keeps isAdded
          · exact tried.keeps (List.mem_append_left _ isTried)
      | .error error, unanswered => exact unanswered
  · exact stays

theorem canonical_reads (provider : GatewayProvider) (name : String) :
    Reads (answers members) (.perform (.canonical provider name) : Handling String) journal
      fun identity => name ∈ members → identity = name :=
  reads_perform fun _ _ answered => answered

/-- The loop after the first attempt. -/
theorem safely_failover {body : Body} (isBuffered : body.isStream = false)
    (isPool : app.settings.target.isPool = true) (waitStart : ℚ) {rounds : Nat}
    (enough : (SHORT_HOLD_MAX_WAITS + 1) * (members.length + 1) ≤ rounds) {state : Failover}
    (trying : Trying members state journal) :
    Safely members journal (iterate (failoverRound runtime app body waitStart) rounds state)
      Settles :=
  safe_iterate (fun state journal trying => safely_failoverRound isBuffered isPool waitStart state journal trying)
    rounds state journal trying ((left_lt members state).trans_le enough)

theorem safely_settle {body : Body} {rounds : Nat}
    (enough : (SHORT_HOLD_MAX_WAITS + 1) * (members.length + 1) ≤ rounds) (waitStart : ℚ)
    {waits : Nat} {name : String} (waiting : WaitsFirst app members ⟨.identity name, waits⟩ journal) :
    Safely members journal (settle runtime app rounds body waitStart waits name) Settles := by
  have start := waiting.unanswered
  refine safely_calm_bind start.safe (canonical_reads _ name) (fun identity isName => ?_) fun _ => start
  have isNew : identity ∉ recent journal.trace := waiting.untried ▸ List.not_mem_nil
  have first : Safely members journal (attempt app body identity) fun _ => Tried identity body journal :=
    safely_attempt start isNew fun _ => waiting.streamed
  refine safe_bind _ _ (safe_andThen _ _ (safe_mono ?_ _ _ first))
  intro outcome after tried
  have stays := tried.unanswered
  have calmly {Result : Type} {program : Handling Result}
      {next : Result → Handling (Option Settled)} (calm : Calm members after program)
      (goesOn : ∀ result, Safely members after (next result) Settles) :
      Safely members after (program >>= next) Settles :=
    safely_calm_bind stays.safe calm (fun result _ => goesOn result) fun _ => stays
  -- Only a pool with a body that can be replayed goes on.
  have failover (quota : Bool) (cur : Option Response) (credErr : Option Thrown)
      (poolReplay : (app.settings.target.isPool && !body.isStream) = true) :
      Safely members after (iterate (failoverRound runtime app body waitStart) rounds
        ⟨[], name, quota, cur, credErr, identity, waits⟩) Settles := by
    obtain ⟨isPool, isBuffered⟩ := Bool.and_eq_true_iff.mp poolReplay
    have isBuffered := Bool.eq_false_of_not_eq_true' isBuffered
    have isMember := (waiting.picks isPool name rfl).1
    have sameName := isName isMember
    refine safely_failover isBuffered isPool waitStart enough ⟨stays, ?_, ?_, ?_⟩
    · exact (tried.streamed isBuffered).trans waiting.streamed
    · intro other member
      rw [tried.trace, recent, waiting.untried, List.mem_singleton] at member
      exact .inr (member.trans sameName)
    · have different : Moment.tried identity ≠ .waited := nofun
      rw [tried.trace, waitsOf, List.count_cons_of_ne different]
      exact waiting.waits
  match outcome with
  | .ok res =>
    dsimp only
    split
    next poolReplay =>
      refine calmly (reads_andThen (calm_isQuota res) fun _ => calm_done _) fun checked => ?_
      match checked with
      | .error error => exact stays
      | .ok (quota, res) =>
        dsimp only
        split
        · exact calmly (calm_holdQuota name res) fun _ => failover _ _ _ poolReplay
        · exact failover _ _ _ poolReplay
    · exact stays
  | .error error =>
    refine safely_aborted_bind stays.safe fun gone => ?_
    split
    next goesOn => exact calmly (calm_holdCredentialFailure name error) fun _ => failover _ _ _ goesOn.1
    · exact stays

/-! ### Requests -/

theorem safely_answered (unanswered : journal.Unanswered) (identity : String)
    (model : Option String) (res : Response) :
    Safely members journal (answered runtime app identity model res) Replies := by
  refine safe_perform_bind fun released after same => ?_
  obtain rfl : after = journal := same
  refine ⟨unanswered.safe, ?_⟩
  dsimp only
  split
  · exact ⟨_, rfl, unanswered⟩
  · refine safe_perform_bind fun pushed last same => ?_
    obtain rfl : last = _ := same
    have row := unanswered.safe.record
    exact ⟨(row _).safe, ⟨_, rfl, row _⟩⟩

/-- A reply, or what was thrown before there was one; the rounds suffice. -/
def Responds : Except Thrown (Option (Reply Native)) → Journal → Prop
  | .ok (some reply), after => Accounted after reply
  | .ok none, _ => False
  | .error _, after => after.Unanswered

theorem safely_responded {program : Handling (Reply Native)}
    (safely : Safely members journal program RepliesOrThrows) :
    Safely members journal (program >>= fun reply => return some reply) Responds := by
  refine safe_bind _ _ (safe_mono ?_ _ _ safely)
  intro outcome after ended
  cases outcome with
  | ok reply => exact ended
  | error error => exact ended

theorem safely_respond {rounds : Nat}
    (enough : (SHORT_HOLD_MAX_WAITS + 1) * (members.length + 1) ≤ rounds) (identity : String)
    (body : Body) (model : Option String) (start : journal = .new) :
    Safely members journal (respond runtime app rounds identity body model) Responds := by
  have unanswered : journal.Unanswered := start ▸ Journal.unanswered_new
  have rejects (status : Nat) (message : String) : Safely members journal
      (reject app identity status message model >>= fun reply : Reply Native => return some reply)
      Responds :=
    safely_responded (safe_mono Replies.orThrows _ _ (safely_reject unanswered _ _ _ _))
  unfold respond
  split
  · exact rejects _ _
  refine safely_calm_bind unanswered.safe calm_usedToday (fun used _ => ?_) fun _ => unanswered
  split
  · exact rejects _ _
  refine safely_calm_bind unanswered.safe calm_now (fun waitStart _ => ?_) fun _ => unanswered
  refine safely_calm_bind unanswered.safe firstPick_reads (fun picked picks => ?_) fun _ => unanswered
  have waiting : WaitsFirst app members ⟨picked, 0⟩ journal :=
    ⟨unanswered, start ▸ rfl, start ▸ rfl, start ▸ rfl, picks⟩
  have few : SHORT_HOLD_MAX_WAITS - 0 < rounds :=
    (Nat.lt_succ_self _).trans_le ((Nat.le_mul_of_pos_right _ (Nat.succ_pos _)).trans enough)
  refine safe_bind _ _ (safe_mono ?_ _ _
    (safe_iterate (safely_waitRound waitStart) rounds _ _ waiting few))
  intro outcome after ended
  match outcome, ended with
  | .error error, unanswered => exact unanswered
  | .ok (some ⟨.reject reason, waits⟩), waiting =>
    exact safely_responded (safely_rejectPick waiting.unanswered _ _ _)
  | .ok (some ⟨.identity name, waits⟩), waiting =>
    refine safe_bind _ _ (safe_mono ?_ _ _ (safely_settle enough waitStart waiting))
    intro outcome after ended
    match outcome, ended with
    | .error error, unanswered => exact unanswered
    | .ok (some ⟨identity, .ok res⟩), unanswered =>
      exact safely_responded (safe_mono Replies.orThrows _ _ (safely_answered unanswered _ _ _))
    | .ok (some ⟨identity, .error error⟩), unanswered =>
      exact safely_responded (safe_mono Replies.orThrows _ _ (safely_failedReply unanswered _ _ _))

theorem safely_run {rounds : Nat}
    (enough : (SHORT_HOLD_MAX_WAITS + 1) * (members.length + 1) ≤ rounds) (identity : String)
    (request : Request) :
    Safely members .new (run runtime app rounds identity request)
      fun outcome after => ∃ reply, outcome = .ok (some reply) ∧ Accounted after reply := by
  have start := Journal.unanswered_new
  unfold run
  split
  · refine safe_bind _ _ (safe_mono ?_ _ _ (safely_reject start _ _ _ _))
    rintro outcome after ⟨reply, rfl, accounted⟩
    exact ⟨reply, rfl, accounted⟩
  refine safe_bind _ _ (safe_mono ?_ _ _ (safely_receive start identity request))
  intro outcome after ended
  match outcome, ended with
  | .ok (.inl reply), accounted => exact ⟨reply, rfl, accounted⟩
  | .ok (.inr body), isNew =>
    obtain rfl : after = .new := isNew
    refine safe_andThen _ _ (safe_mono ?_ _ _ (safely_respond enough identity body _ rfl))
    intro outcome after ended
    match outcome, ended with
    | .ok (some reply), accounted => exact ⟨reply, rfl, accounted⟩
    | .error error, unanswered =>
      refine safe_bind _ _ (safe_mono ?_ _ _ (safely_unexpected unanswered identity _))
      rintro outcome after ⟨reply, rfl, accounted⟩
      exact ⟨reply, rfl, accounted⟩

theorem Accounted.safe {reply : Reply Native} (accounted : Accounted journal reply) :
    journal.Safe := by
  cases reply with
  | streaming stream => exact Journal.Unanswered.safe accounted
  | _ => exact Journal.Answered.safe accounted

theorem safely_proxy {rounds : Nat}
    (enough : (SHORT_HOLD_MAX_WAITS + 1) * (members.length + 1) ≤ rounds) (request : Request) :
    Safely members .new (proxy runtime app rounds request)
      fun outcome after => ∃ reply, outcome = .ok (some reply) ∧ Accounted after reply := by
  have goesOn (identity : String) : Safely members .new
      (run runtime app rounds identity request >>= fun reply => do
        .perform .releaseBody
        return reply)
      fun outcome after => ∃ reply, outcome = .ok (some reply) ∧ Accounted after reply := by
    refine safe_bind _ _ (safe_mono ?_ _ _ (safely_run enough identity request))
    rintro outcome after ⟨reply, rfl, accounted⟩ released last same
    obtain rfl : last = after := same
    exact ⟨accounted.safe, reply, rfl, accounted⟩
  unfold proxy
  split
  · refine safe_perform_bind fun identity after answered => ?_
    obtain rfl : after = .new := answered.1
    exact ⟨Journal.unanswered_new.safe, goesOn identity⟩
  · exact goesOn "-"

end Requests

/-! ### Every request -/

section Every

variable {Native : Type} (runtime : ProxyRuntime Native) (app : App)

/-- The rows after a reply: one, and for a stream one from the moment it has ended. -/
def RowsOnce (after : Journal) : Reply Native → Prop
  | .streaming stream => ∀ controllerAborted (events : List PassEvent),
      (events.foldl (Passing.step runtime app)
        ⟨stream, false, controllerAborted, after⟩).journal.rows.length =
        if events.any PassEvent.ends then 1 else 0
  | .error .. | .native _ | .empty .. => after.rows.length = 1

theorem Accounted.rowsOnce {after : Journal} {reply : Reply Native} (accounted : Accounted after reply) :
    RowsOnce runtime app after reply := by
  cases reply with
  | streaming stream =>
    intro controllerAborted events
    have unanswered : after.Unanswered := accounted
    exact rows_foldl ⟨unanswered.safe.sound, fun closed => absurd closed Bool.false_ne_true⟩
      unanswered.recorded events
  | _ => exact Journal.Answered.rows accounted

/-- Every request is tried safely and accounted once. With rounds enough for nine passes over the
members it ends with a reply; at every moment it has one row at most, has sent a body that cannot
be sent twice once at most, and has tried no member again without a wait in between, of which
there are eight at most. -/
theorem requests_accountedOnce {members : List String} {rounds : Nat}
    (enough : (SHORT_HOLD_MAX_WAITS + 1) * (members.length + 1) ≤ rounds) {request : Request}
    {outcome : Option (Except Thrown (Option (Reply Native)))} {after : Journal}
    (reaches : (proxy runtime app rounds request).Reaches (answers members) .new outcome after) :
    after.rows.length ≤ 1 ∧ after.streamed ≤ 1 ∧
      (∀ later between earlier name,
        after.trace = later ++ .tried name :: (between ++ .tried name :: earlier) →
          .waited ∈ between) ∧
      waitsOf after.trace ≤ SHORT_HOLD_MAX_WAITS ∧
      ∀ result, outcome = some result →
        ∃ reply, result = .ok (some reply) ∧ RowsOnce runtime app after reply := by
  obtain ⟨kept, ends⟩ := reaches.safe (safely_proxy enough request)
  have safe : after.Safe := by
    obtain same | ⟨between, -, last⟩ := kept.cases_tail
    · exact same ▸ Journal.unanswered_new.safe
    · exact last
  refine ⟨?_, safe.once, fun later between earlier name isTrace => ?_, safe.waits, ?_⟩
  · rw [safe.sound]
    split <;> omega
  · have distinct := safe.distinct
    rw [isTrace] at distinct
    exact distinct.waited_mem
  · intro result isResult
    obtain ⟨reply, rfl, accounted⟩ := ends result isResult
    exact ⟨reply, rfl, accounted.rowsOnce runtime app⟩

end Every

/-! ### A member that is tried again -/

namespace TriedAgain

def runtime : ProxyRuntime Unit where
  parse := fun _ => none
  toLowerCase := List.map Char.toLower
  number := fun _ => none
  dateParse := fun _ => none
  requestModel := fun _ => none
  nativeLimitResponse := fun _ _ _ _ => none

/-- An application whose pool has one member. -/
def app : App where
  name := "editor"
  settings := ⟨.claude, .anthropic, .pool [], [], none, none⟩
  state := .active
  createdAt := "2026-01-01T00:00:00.000Z"
  lastUsedAt := none

/-- The member answers with a rate limit until the hold of 15 s has ended, and then well. -/
def answer : (Answer : Type) → GatewayAction Answer → Journal → Answer × Journal
  | _, .now, journal => (if .waited ∈ journal.trace then 15000 else 0, journal)
  | _, .requestAborted, journal => (false, journal)
  | _, .controllerAborted, journal => (false, journal)
  | _, .nextTick, journal => ((), journal)
  | _, .sleep _, journal => ((), journal.wait)
  | _, .reserve _, journal => (.ok (), journal)
  | _, .releaseBody, journal => ((), journal)
  | _, .readBody, journal => (.ok .none, journal)
  | _, .usageSince _ _, journal => (.ok 0, journal)
  | _, .poolMembers _, journal => (.ok ["work"], journal)
  | _, .canonical _ name, journal => (name, journal)
  | _, .usageFor _ _, journal => (none, journal)
  | _, .signature _ _, journal => (none, journal)
  | _, .exhausted, journal =>
      (if journal.trace = [] then [] else [((.claude, "work"), 15000)], journal)
  | _, .exhaustedUntil _, journal => (some 15000, journal)
  | _, .holds, journal => ([((.claude, "work"), ⟨.burst, false, none, none⟩)], journal)
  | _, .hold _, journal => (some ⟨.burst, false, none, none⟩, journal)
  | _, .setExhausted _ _, journal => ((), journal)
  | _, .deleteExhausted _, journal => ((), journal)
  | _, .setHold _ _, journal => ((), journal)
  | _, .deleteHold _, journal => ((), journal)
  | _, .getCredential _ name, journal =>
      (.ok ⟨name, "token", none, none⟩, { journal with trace := .tried name :: journal.trace })
  | _, .refreshAfter401 _ _ _, journal => (.error .refreshCooldown, journal)
  | _, .fetch _ body, journal =>
      (.ok ⟨if .waited ∈ journal.trace then 200 else 429, [], true⟩,
        { journal with sends := body :: journal.sends })
  | _, .peek _, journal => (.ok ([], true), journal)
  | _, .discard _, journal => ((), journal)
  | _, .record row, journal => ((), journal.record row)

theorem answer_allowed (Answer : Type) (action : GatewayAction Answer) (journal : Journal) :
    answers ["work"] Answer action journal (answer Answer action journal).1
      (answer Answer action journal).2 := by
  cases action with
  | poolMembers provider => exact ⟨rfl, fun names same => Except.ok.inj same ▸ List.Subset.refl _⟩
  | canonical provider name => exact ⟨rfl, fun _ => rfl⟩
  | _ => rfl

/-- The run of a request without a body. -/
def finished : Except Thrown (Option (Reply Unit)) × Journal :=
  (proxy runtime app 18 ⟨true, false, none⟩).run answer .new

theorem finished_reaches : (proxy runtime app 18 ⟨true, false, none⟩).Reaches (answers ["work"])
    .new (some finished.1) finished.2 :=
  reaches_run answer_allowed _ .new

end TriedAgain

open TriedAgain in
/-- A member that was excluded is tried again after a wait. -/
theorem request_triesMemberAgain :
    (proxy runtime app 18 ⟨true, false, none⟩).Reaches (answers ["work"]) .new (some finished.1)
        finished.2 ∧
      finished.2.trace = [.tried "work", .waited, .tried "work"] :=
  ⟨finished_reaches, by decide +kernel⟩

open TriedAgain in
theorem requests_accountedOnce_triedAgain :
    finished.2.rows.length ≤ 1 ∧ waitsOf finished.2.trace ≤ 8 ∧
      ∃ reply, finished.1 = .ok (some reply) ∧ RowsOnce runtime app finished.2 reply := by
  obtain ⟨rows, -, -, waits, ends⟩ :=
    requests_accountedOnce runtime app (by decide) finished_reaches
  exact ⟨rows, waits, ends _ rfl⟩

end AiSwitcher.Gateway.Proxy
