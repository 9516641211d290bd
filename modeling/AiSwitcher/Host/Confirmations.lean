/-
This file proves what a confirmation is good for over a whole session of the app: any sequence of
attempts to confirm, refreshes and uses of tickets. Whatever a run of the writer changes on a
drive it changes under the one confirmation that was given last, for that very plan and device,
not used before, and given at most two minutes ago.

The book never holds an approval but that of the last confirmation, and this one only as long as
nothing has ended it (`Confirmed`).
-/

import AiSwitcher.Host.WriteImageRuns

namespace AiSwitcher.Device

open Interrupted Program

/-! ### Sessions -/

/-- What happens to the book of a session. -/
inductive BookEvent where
  | issued (plan : WritePlan) (typed : String) (now ttl : Nat)
      (answer : Except DeviceError Fingerprint)
  | invalidated
  | consumed (ticket : Fingerprint) (plan : WritePlan) (answer : Except DeviceError Unit)
  /-- A run of the writer, with the bytes before it and the drive after it. -/
  | wrote (ticket : Fingerprint) (plan : WritePlan) (before : Nat → UInt8) (after : Drive)

/-- A book, and what has happened to it, the latest first. -/
structure BookSession where
  book : ConfirmationBook
  events : List BookEvent

section Session

variable (hashing : Hashing) (exact : Prop)

inductive BookSession.Step (session : BookSession) : BookSession → Prop
  | issue (plan : WritePlan) (typed : String) (now ttl : Nat) (entropy : Option Fingerprint) :
      Step session ⟨(session.book.issue hashing plan typed now ttl entropy).2,
        .issued plan typed now ttl (session.book.issue hashing plan typed now ttl entropy).1 ::
          session.events⟩
  | invalidate : Step session ⟨session.book.invalidate, .invalidated :: session.events⟩
  | consume (ticket : Fingerprint) (plan : WritePlan) (current : DeviceObservation)
      (image : VerifiedImage) (now : Nat) :
      Step session ⟨(session.book.consume hashing ticket plan current image now).2,
        .consumed ticket plan (session.book.consume hashing ticket plan current image now).1 ::
          session.events⟩
  | write {ticket : Fingerprint} {plan : WritePlan} {image : VerifiedImage} {rounds cursor : Nat}
      {bytes : Nat → UInt8} {outcome : Option (Except Stopped Nat)} {after : Drive}
      (reaches : (writeImage hashing image plan rounds session.book ticket).Reaches
        (Drive.Answers exact) (.found bytes cursor) outcome after) :
      Step session ⟨session.book.remove ticket, .wrote ticket plan bytes after :: session.events⟩

/-- A session that begins with an empty book. -/
def BookSession.Reached (session : BookSession) : Prop :=
  Relation.ReflTransGen (Step hashing exact) ⟨.empty, []⟩ session

end Session

/-- The book after a reservation does not depend on its outcome. -/
theorem ConfirmationBook.reserve_snd (hashing : Hashing) (book : ConfirmationBook)
    (ticket : Fingerprint) (plan : WritePlan) (now : Nat) :
    (book.reserve hashing ticket plan now).2 = book.remove ticket := by
  unfold reserve
  cases found : book.approvals ticket with
  | some approval =>
    dsimp only
    split_ifs <;> rfl
  | none =>
    obtain ⟨approvals⟩ := book
    refine congrArg ConfirmationBook.mk (funext fun other => ?_)
    split_ifs with same
    · rw [same]
      exact found
    · rfl

theorem ConfirmationBook.consume_snd (hashing : Hashing) (book : ConfirmationBook)
    (ticket : Fingerprint) (plan : WritePlan) (current : DeviceObservation)
    (image : VerifiedImage) (now : Nat) :
    (book.consume hashing ticket plan current image now).2 = book.remove ticket := by
  rw [← book.reserve_snd hashing ticket plan now, consume]
  cases book.reserve hashing ticket plan now with
  | mk answer rest => cases answer <;> rfl

/-! ### What an approval rests on -/

/-- Another attempt to confirm, a refresh, or a use of the ticket. -/
def BookEvent.EndsApproval (ticket : Fingerprint) : BookEvent → Prop
  | .issued .. | .invalidated => True
  | .consumed used _ _ | .wrote used _ _ _ => used = ticket

/-- The latest attempt to confirm was the one that gave the ticket, and nothing has ended it
since. -/
structure Confirmed (hashing : Hashing) (events : List BookEvent) (ticket : Fingerprint)
    (approval : Approval) : Prop where
  issued : ∃ since earlier plan now ttl,
    events = since ++ .issued plan approval.identifier now ttl (.ok ticket) :: earlier ∧
    (∀ event ∈ since, ¬ event.EndsApproval ticket) ∧
    approval.identifier = plan.device.displayIdentifier ∧ approval.identifier ≠ "" ∧
    approval.plan = hashing.digest plan ∧ approval.expires = now + ttl ∧
    ttl ≤ ConfirmationBook.MAX_TTL

theorem Confirmed.cons {hashing : Hashing} {events : List BookEvent} {ticket : Fingerprint}
    {approval : Approval} {event : BookEvent} (confirmed : Confirmed hashing events ticket approval)
    (goesOn : ¬ event.EndsApproval ticket) :
    Confirmed hashing (event :: events) ticket approval := by
  obtain ⟨since, earlier, plan, now, ttl, rfl, none, rest⟩ := confirmed.issued
  exact ⟨event :: since, earlier, plan, now, ttl, rfl, List.forall_mem_cons.mpr ⟨goesOn, none⟩,
    rest⟩

/-- Every approval of the book is that of the last confirmation. -/
def BookSession.Holds (hashing : Hashing) (session : BookSession) : Prop :=
  ∀ ticket approval, session.book.approvals ticket = some approval →
    Confirmed hashing session.events ticket approval

variable {hashing : Hashing} {exact : Prop} {session after : BookSession}

theorem ConfirmationBook.of_remove {book : ConfirmationBook} {used ticket : Fingerprint}
    {approval : Approval} (found : (book.remove used).approvals ticket = some approval) :
    used ≠ ticket ∧ book.approvals ticket = some approval := by
  unfold remove at found
  dsimp only at found
  split_ifs at found with same
  exact ⟨fun equal => same equal.symm, found⟩

/-- A confirmation that is refused leaves no approval, one that is given leaves its own. -/
theorem ConfirmationBook.of_issue {book : ConfirmationBook} {plan : WritePlan} {typed : String}
    {now ttl : Nat} {entropy : Option Fingerprint} {ticket : Fingerprint} {approval : Approval}
    (found : (book.issue hashing plan typed now ttl entropy).2.approvals ticket =
      some approval) :
    (book.issue hashing plan typed now ttl entropy).1 = .ok ticket ∧
      typed = plan.device.displayIdentifier ∧ typed ≠ "" ∧ ttl ≤ MAX_TTL ∧
      approval = ⟨hashing.digest plan, typed, now + ttl⟩ := by
  unfold issue at found ⊢
  dsimp only at found ⊢
  split_ifs at found ⊢ with wrong long
  · cases found
  · cases found
  rw [not_or, not_not] at wrong
  cases entropy with
  | none => cases found
  | some nonce =>
    unfold insert at found
    dsimp only at found
    split_ifs at found with same
    · rw [same]
      exact ⟨rfl, wrong.1, wrong.2, by omega, (Option.some.inj found).symm⟩
    · cases found

theorem BookSession.Holds.step (holds : session.Holds hashing)
    (step : session.Step hashing exact after) : after.Holds hashing := by
  intro ticket approval found
  cases step with
  | issue plan typed now ttl entropy =>
    obtain ⟨answer, identifier, some', short, rfl⟩ := ConfirmationBook.of_issue found
    dsimp only
    rw [answer]
    exact ⟨[], session.events, plan, now, ttl, rfl, List.forall_mem_nil _, identifier, some', rfl,
      rfl, short⟩
  | invalidate => exact absurd found.symm (Option.some_ne_none _)
  | consume used plan current image now =>
    dsimp only at found
    rw [ConfirmationBook.consume_snd] at found
    obtain ⟨other, earlier⟩ := ConfirmationBook.of_remove found
    exact (holds ticket approval earlier).cons other
  | write reaches =>
    obtain ⟨other, earlier⟩ := ConfirmationBook.of_remove found
    exact (holds ticket approval earlier).cons other

theorem BookSession.Reached.holds (reached : session.Reached hashing exact) :
    session.Holds hashing := by
  induction reached with
  | refl => exact fun _ _ found => absurd found.symm (Option.some_ne_none _)
  | tail _ step inductionHypothesis => exact inductionHypothesis.step step

/-! ### What is written is confirmed -/

/-- A write that has changed a drive: the latest attempt to confirm before it was for this plan
and gave the ticket, nothing has ended it, and when the first byte was written the clock had not
reached its end and the device was last seen as it was planned for. -/
structure Authorised (hashing : Hashing) (earlier : List BookEvent) (ticket : Fingerprint)
    (plan : WritePlan) (after : Drive) : Prop where
  confirmed : ∃ approval time, Confirmed hashing earlier ticket approval ∧
    approval.plan = hashing.digest plan ∧
    approval.identifier = plan.device.displayIdentifier ∧
    after.mutation = some (time, some plan.device) ∧ time < approval.expires

/-- A run changes a drive only under an approval of the book. -/
theorem writeImage_approved {image : VerifiedImage} {plan : WritePlan} {rounds cursor : Nat}
    {book : ConfirmationBook} {ticket : Fingerprint} {bytes : Nat → UInt8} {drive : Drive}
    {outcome : Option (Except Stopped Nat)}
    (reaches : (writeImage hashing image plan rounds book ticket).Reaches
      (Drive.Answers exact) (.found bytes cursor) outcome drive) (changed : drive.bytes ≠ bytes) :
    ∃ approval time, book.approvals ticket = some approval ∧
      approval.plan = hashing.digest plan ∧
      approval.identifier = plan.device.displayIdentifier ∧
      drive.mutation = some (time, some plan.device) ∧ time < approval.expires := by
  obtain ⟨count, partway, -, -, fresh, approved⟩ := writeImage_reaches reaches
  have notNone : drive.mutation ≠ none := by
    intro none
    obtain rfl := fresh.mpr none
    exact changed partway.of_zero
  obtain ⟨⟨time, seen⟩, mutation⟩ := Option.ne_none_iff_exists'.mp notNone
  obtain ⟨approval, found, holds⟩ := approved _ mutation
  obtain ⟨current, rfl, identifier, valid⟩ := holds.seen
  obtain rfl : current = plan.device := (revalidate_eq_ok.mp valid).2.1
  exact ⟨approval, time, found, holds.digest, identifier, mutation, holds.unexpired⟩

/-- In every session: whenever a run of the writer has changed a drive, wherever it was cut off
or ended, this was authorised by the events before it. -/
theorem writes_authorised (reached : session.Reached hashing exact) :
    ∀ {later earlier : List BookEvent} {ticket : Fingerprint} {plan : WritePlan}
      {before : Nat → UInt8} {drive : Drive},
      session.events = later ++ .wrote ticket plan before drive :: earlier →
      drive.bytes ≠ before → Authorised hashing earlier ticket plan drive := by
  induction reached with
  | refl =>
    intro later earlier ticket plan before drive split
    exact absurd split.symm (List.append_ne_nil_of_right_ne_nil _ (List.cons_ne_nil _ _))
  | @tail middle last reached step inductionHypothesis =>
    intro later earlier ticket plan before drive split changed
    cases later with
    | cons event later =>
      have split : middle.events = later ++ .wrote ticket plan before drive :: earlier := by
        cases step with
        | issue => exact (List.cons.inj split).2
        | invalidate => exact (List.cons.inj split).2
        | consume => exact (List.cons.inj split).2
        | write => exact (List.cons.inj split).2
      exact inductionHypothesis split changed
    | nil =>
      cases step with
      | issue => cases split
      | invalidate => cases split
      | consume => cases split
      | write reaches =>
        cases split
        obtain ⟨approval, time, found, rest⟩ := writeImage_approved reaches changed
        exact ⟨approval, time, BookSession.Reached.holds reached ticket approval found, rest⟩

/-- The session of the sample: it is confirmed and then written. -/
theorem sampleSession_reached : BookSession.Reached sampleHashing True
    ⟨sampleBook.remove sampleDigest,
      [.wrote sampleDigest samplePlan (fun _ => 0) sampleRun.2,
        .issued samplePlan "Stick" 0 1 (.ok sampleDigest)]⟩ := by
  have issued : BookSession.Step sampleHashing True ⟨.empty, []⟩
      ⟨sampleBook, [.issued samplePlan "Stick" 0 1 (.ok sampleDigest)]⟩ :=
    .issue samplePlan "Stick" 0 1 (some sampleDigest)
  exact .tail (.single issued) (.write (sampleWriter_reaches True))

theorem writes_authorised_sample : Authorised sampleHashing
    [.issued samplePlan "Stick" 0 1 (.ok sampleDigest)] sampleDigest samplePlan sampleRun.2 := by
  have first : sampleRun.2.bytes 0 = 8 := by decide +kernel
  have changed : sampleRun.2.bytes ≠ fun _ => 0 := fun same => by
    rw [same] at first
    exact absurd first (by decide)
  exact @writes_authorised _ _ _ sampleSession_reached [] _ _ _ _ _ rfl changed

end AiSwitcher.Device
