/-
This file models a response while it is passed on to the client, and proves that its row is
pushed exactly once: when the upstream ends or fails, when the reader cancels, or when the client is
gone, whichever comes first. The chunks are shown to the tap before they are passed on.
-/

import AiSwitcher.Gateway.Proxy.Journal

namespace AiSwitcher.Gateway.Proxy

open JavaScript Interrupted

/-- What happens to a response that is passed on: a read of the upstream returns, the reader
cancels, or the signal of the request aborts. -/
inductive PassEvent where
  | chunk (bytes : Utf8.Bytes)
  | done
  | failed
  | cancelled
  | requestAborted
  deriving DecidableEq

def PassEvent.ends : PassEvent → Bool
  | .chunk _ => false
  | .done | .failed | .cancelled | .requestAborted => true

/-- A response under way: whether its stream is closed, and whether the upstream was aborted. -/
structure Passing where
  stream : Streaming
  closed : Bool
  controllerAborted : Bool
  journal : Journal

namespace Passing

variable {Native : Type} (runtime : ProxyRuntime Native) (app : App) (passing : Passing)

def finish (status : RowStatus) : Passing :=
  { passing with
    stream := { passing.stream with
      tap := passing.stream.tap.asked runtime.toTapRuntime (usageStyle app) }
    journal := passing.journal.record (finishedRow runtime app passing.stream status) }

/-- What a read that throws does, be it for the upstream or for a stream that is closed. -/
def fail : Passing :=
  { passing.finish runtime app
      (if passing.controllerAborted then .clientAborted else .streamError) with closed := true }

def step : PassEvent → Passing
  | .chunk bytes =>
      let written := { passing with
        stream := { passing.stream with
          tap := passing.stream.tap.write runtime.toTapRuntime (usageStyle app) bytes } }
      if passing.closed then written.fail runtime app else written
  | .done =>
      { passing.finish runtime app (okStatus passing.stream.httpStatus) with closed := true }
  | .failed => passing.fail runtime app
  | .cancelled =>
      { { passing with controllerAborted := true }.finish runtime app .clientAborted with
        closed := true }
  | .requestAborted =>
      -- The listener that aborts the upstream is removed with the row.
      { passing with
        controllerAborted := passing.controllerAborted || !passing.journal.recorded }.finish runtime app
          .clientAborted

end Passing

/-! ### One row -/

/-- As many rows as the flag tells. -/
def Journal.Sound (journal : Journal) : Prop :=
  journal.rows.length = if journal.recorded then 1 else 0

theorem Journal.Sound.record {journal : Journal} (sound : journal.Sound) (row : UsageRow) :
    (journal.record row).Sound ∧ (journal.record row).recorded = true := by
  unfold Journal.record
  split
  next recorded => exact ⟨sound, recorded⟩
  next notYet =>
    refine ⟨?_, rfl⟩
    rw [Journal.Sound, if_neg notYet] at sound
    rw [Journal.Sound, List.length_append, sound]
    rfl

/-- A stream that is closed has its row. -/
structure Passing.Sound (passing : Passing) : Prop where
  journal : passing.journal.Sound
  closed : passing.closed = true → passing.journal.recorded = true

section Rows

variable {Native : Type} {runtime : ProxyRuntime Native} {app : App} {passing : Passing}

theorem Passing.Sound.step (sound : passing.Sound) (event : PassEvent) :
    (passing.step runtime app event).Sound ∧
      (passing.step runtime app event).journal.recorded =
        (passing.journal.recorded || event.ends) := by
  have recorded (row : UsageRow) := sound.journal.record row
  cases event with
  | chunk bytes =>
    rw [PassEvent.ends, Bool.or_false, Passing.step]
    split
    next isClosed =>
      refine ⟨⟨(recorded _).1, fun _ => (recorded _).2⟩, ?_⟩
      exact (recorded _).2.trans (sound.closed isClosed).symm
    · exact ⟨⟨sound.journal, sound.closed⟩, rfl⟩
  | requestAborted =>
    rw [PassEvent.ends, Bool.or_true]
    exact ⟨⟨(recorded _).1, fun _ => (recorded _).2⟩, (recorded _).2⟩
  | _ =>
    rw [PassEvent.ends, Bool.or_true]
    exact ⟨⟨(recorded _).1, fun _ => (recorded _).2⟩, (recorded _).2⟩

theorem Passing.Sound.foldl (sound : passing.Sound) (events : List PassEvent) :
    (events.foldl (Passing.step runtime app) passing).Sound ∧
      (events.foldl (Passing.step runtime app) passing).journal.recorded =
        (passing.journal.recorded || events.any PassEvent.ends) := by
  induction events generalizing passing with
  | nil => exact ⟨sound, (Bool.or_false _).symm⟩
  | cons event rest inductionHypothesis =>
    obtain ⟨kept, recorded⟩ := sound.step event
    obtain ⟨ends, others⟩ := inductionHypothesis kept
    exact ⟨ends, by rw [List.foldl_cons, others, recorded, List.any_cons, Bool.or_assoc]⟩

/-- The row of a response that is passed on is pushed once it has ended, and never again. -/
theorem rows_foldl (sound : passing.Sound) (notYet : passing.journal.recorded = false)
    (events : List PassEvent) :
    (events.foldl (Passing.step runtime app) passing).journal.rows.length =
      if events.any PassEvent.ends then 1 else 0 := by
  obtain ⟨kept, recorded⟩ := sound.foldl events
  rw [kept.journal, recorded, notYet, Bool.false_or]

end Rows

end AiSwitcher.Gateway.Proxy
