/-
This file models the buffer of usage rows, which writes to the store in batches, and
proves that it conserves rows. At most one drain runs at a time. It takes a batch from the
front of the buffer and waits for the store; a batch that fails is put back in front
of the rows pushed meanwhile, unless the store rejected its data: then its rows are
tried one by one.

What runs between two waits is one event. An append is atomic, so one that fails has
written nothing. The console messages are left out.
-/

import Mathlib.Data.List.Basic

namespace AiSwitcher.Gateway

/-! ### The buffer -/

def BATCH_SIZE : Nat := 500

/-- What the drain waits for: an append of a batch, an append of one row of a rejected batch, or
the callback that ends it. -/
inductive Drain (Row : Type) where
  | idle
  | appending (batch : List Row)
  | isolating (row : Row) (untried : List Row)
  | settled
  deriving DecidableEq

/-- What a call of close waits for. -/
inductive Closing where
  | no
  | flushing
  | flushed
  | done
  deriving DecidableEq

/-- The buffer with the history of the rows that were pushed and written. -/
structure LedgerBuffer (Row : Type) where
  max : Nat
  rows : List Row
  droppedCount : Nat
  inflight : Drain Row
  closed : Bool
  closing : Closing
  pushed : List Row
  written : List Row
  deriving DecidableEq

/-- The answer of the store to an append. -/
inductive Appended where
  | ok
  | dataError
  | otherError
  deriving DecidableEq

variable {Row : Type}

namespace LedgerBuffer

def new (max : Nat) : LedgerBuffer Row := ⟨max, [], 0, .idle, false, .no, [], []⟩

/-- The oldest rows are dropped and counted. -/
def trim (buffer : LedgerBuffer Row) : LedgerBuffer Row :=
  let surplus := buffer.rows.length - buffer.max
  { buffer with rows := buffer.rows.drop surplus, droppedCount := buffer.droppedCount + surplus }

def push (buffer : LedgerBuffer Row) (row : Row) : LedgerBuffer Row :=
  let asked := { buffer with pushed := buffer.pushed ++ [row] }
  if buffer.closed then { asked with droppedCount := buffer.droppedCount + 1 }
  else trim { asked with rows := buffer.rows ++ [row] }

/-- The loop of the drain up to the next append. -/
def drain (buffer : LedgerBuffer Row) : LedgerBuffer Row :=
  match buffer.rows with
  | [] => { buffer with inflight := .settled }
  | row :: rest =>
      { buffer with
        rows := (row :: rest).drop BATCH_SIZE
        inflight := .appending ((row :: rest).take BATCH_SIZE) }

/-- A drain that runs is not started again. -/
def flush (buffer : LedgerBuffer Row) : LedgerBuffer Row :=
  match buffer.inflight with
  | .idle => buffer.drain
  | _ => buffer

/-- The store looks down: unwritten rows go back in front of the rows pushed meanwhile. -/
def requeue (buffer : LedgerBuffer Row) (unwritten : List Row) : LedgerBuffer Row :=
  { trim { buffer with rows := unwritten ++ buffer.rows } with inflight := .settled }

/-- The loop of the isolation up to the next append; at its end the drain goes on. -/
def isolate (buffer : LedgerBuffer Row) : List Row → LedgerBuffer Row
  | [] => buffer.drain
  | row :: untried => { buffer with inflight := .isolating row untried }

/-- The store has answered the append that the drain waits for. -/
def appended (buffer : LedgerBuffer Row) (answer : Appended) : LedgerBuffer Row :=
  match buffer.inflight, answer with
  | .appending batch, .ok => drain { buffer with written := buffer.written ++ batch }
  | .appending batch, .dataError => buffer.isolate batch
  | .appending batch, .otherError => buffer.requeue batch
  | .isolating row untried, .ok =>
      isolate { buffer with written := buffer.written ++ [row] } untried
  | .isolating _ untried, .dataError =>
      isolate { buffer with droppedCount := buffer.droppedCount + 1 } untried
  | .isolating row untried, .otherError => buffer.requeue (row :: untried)
  | .idle, _ | .settled, _ => buffer

/-- The callback after a drain, which also resumes a call of close that waits for it. -/
def finish (buffer : LedgerBuffer Row) : LedgerBuffer Row :=
  match buffer.inflight with
  | .settled =>
      { buffer with
        inflight := .idle
        closing := if buffer.closing = .flushing then .flushed else buffer.closing }
  | _ => buffer

def close (buffer : LedgerBuffer Row) : LedgerBuffer Row :=
  if buffer.closed then buffer
  else flush { buffer with closed := true, closing := .flushing }

/-- The rest of close: what could not be written is dropped and counted. -/
def closeAfterFlush (buffer : LedgerBuffer Row) : LedgerBuffer Row :=
  if buffer.closing = .flushed then
    { buffer with
      rows := []
      droppedCount := buffer.droppedCount + buffer.rows.length
      closing := .done }
  else buffer

/-- What may happen to a buffer. A timed flush is a flush. -/
inductive Event (Row : Type) where
  | push (row : Row)
  | flush
  | appended (answer : Appended)
  | finish
  | close
  | closeAfterFlush

def step (buffer : LedgerBuffer Row) : Event Row → LedgerBuffer Row
  | .push row => buffer.push row
  | .flush => buffer.flush
  | .appended answer => buffer.appended answer
  | .finish => buffer.finish
  | .close => buffer.close
  | .closeAfterFlush => buffer.closeAfterFlush

def run (buffer : LedgerBuffer Row) (events : List (Event Row)) : LedgerBuffer Row :=
  events.foldl step buffer

/-- The rows that the drain has taken and whose fate is open. -/
def inFlight (buffer : LedgerBuffer Row) : List Row :=
  match buffer.inflight with
  | .appending batch => batch
  | .isolating row untried => row :: untried
  | .idle | .settled => []

/-! ### Conservation -/

/-- Rows in hand, which the drain has taken: with the rest of the buffer they account for every row
that was pushed, in order. -/
structure Accounts (buffer : LedgerBuffer Row) (inHand : List Row) : Prop where
  count : buffer.pushed.length =
    buffer.written.length + buffer.droppedCount + buffer.rows.length + inHand.length
  order : (buffer.written ++ inHand ++ buffer.rows).Sublist buffer.pushed

/-- What holds between events. -/
structure Conserves (buffer : LedgerBuffer Row) : Prop
    extends Accounts buffer buffer.inFlight where
  depth : buffer.rows.length ≤ buffer.max

variable {buffer : LedgerBuffer Row} {inHand : List Row}

theorem length_trim : (trim buffer).rows.length ≤ buffer.max := by
  simp only [trim, List.length_drop]
  omega

theorem Accounts.trim (accounts : Accounts buffer []) : Accounts buffer.trim [] where
  count := by
    have count := accounts.count
    simp only [LedgerBuffer.trim, List.length_drop]
    omega
  order := by
    have order := accounts.order
    rw [List.append_nil] at order ⊢
    exact (List.Sublist.append_left (List.drop_sublist _ _) _).trans order

theorem conserves_requeue {unwritten : List Row} (accounts : Accounts buffer unwritten) :
    Conserves (buffer.requeue unwritten) := by
  have front : Accounts { buffer with rows := unwritten ++ buffer.rows } [] :=
    { count := by
        have count := accounts.count
        simp only [List.length_append, List.length_nil]
        omega
      order := by simpa using accounts.order }
  exact { front.trim with depth := length_trim }

theorem conserves_drain (accounts : Accounts buffer [])
    (depth : buffer.rows.length ≤ buffer.max) : Conserves buffer.drain := by
  unfold drain
  split
  next empty => exact { accounts with depth := depth }
  next row rest isRows =>
    have taken := List.take_append_drop BATCH_SIZE (row :: rest)
    refine { count := ?_, order := ?_, depth := ?_ }
    · have count := accounts.count
      rw [isRows, ← taken, List.length_append] at count
      show buffer.pushed.length = buffer.written.length + buffer.droppedCount +
        ((row :: rest).drop BATCH_SIZE).length + ((row :: rest).take BATCH_SIZE).length
      rw [count, List.length_nil]
      omega
    · have order := accounts.order
      rw [isRows, ← taken, List.append_nil, ← List.append_assoc] at order
      exact order
    · rw [isRows] at depth
      exact Nat.le_trans (List.drop_sublist _ _).length_le depth

theorem conserves_flush (conserves : Conserves buffer) : Conserves buffer.flush := by
  unfold flush
  split
  next idle =>
    refine conserves_drain ?_ conserves.depth
    have accounts := conserves.toAccounts
    rwa [inFlight, idle] at accounts
  next => exact conserves

theorem conserves_isolate {untried : List Row} (accounts : Accounts buffer untried)
    (depth : buffer.rows.length ≤ buffer.max) : Conserves (buffer.isolate untried) := by
  cases untried with
  | nil => exact conserves_drain accounts depth
  | cons row untried => exact { accounts with depth := depth }

/-- Rows in hand are written. -/
theorem Accounts.write {batch : List Row} (accounts : Accounts buffer (batch ++ inHand)) :
    Accounts { buffer with written := buffer.written ++ batch } inHand where
  count := by
    have count := accounts.count
    simp only [List.length_append] at count ⊢
    omega
  order := by simpa using accounts.order

/-- A row in hand is dropped. -/
theorem Accounts.drop {row : Row} (accounts : Accounts buffer (row :: inHand)) :
    Accounts { buffer with droppedCount := buffer.droppedCount + 1 } inHand where
  count := by
    have count := accounts.count
    simp only [List.length_cons] at count ⊢
    omega
  order := by
    refine List.Sublist.trans ?_ accounts.order
    exact ((List.sublist_cons_self row inHand).append_left _).append_right _

theorem conserves_appended (conserves : Conserves buffer) (answer : Appended) :
    Conserves (buffer.appended answer) := by
  have accounts := conserves.toAccounts
  have depth := conserves.depth
  unfold appended
  cases isInflight : buffer.inflight with
  | idle => exact conserves
  | settled => exact conserves
  | appending batch =>
    rw [inFlight, isInflight] at accounts
    cases answer with
    | ok =>
      have written : Accounts { buffer with written := buffer.written ++ batch } [] :=
        Accounts.write ((List.append_nil batch).symm ▸ accounts)
      exact conserves_drain { written with } depth
    | dataError => exact conserves_isolate accounts depth
    | otherError => exact conserves_requeue accounts
  | isolating row untried =>
    rw [inFlight, isInflight] at accounts
    cases answer with
    | ok =>
      have written : Accounts { buffer with written := buffer.written ++ [row] } untried :=
        Accounts.write accounts
      exact conserves_isolate { written with } depth
    | dataError => exact conserves_isolate { accounts.drop with } depth
    | otherError => exact conserves_requeue accounts

theorem conserves_push (conserves : Conserves buffer) (row : Row) :
    Conserves (buffer.push row) := by
  have count := conserves.count
  have order := conserves.order
  unfold push
  dsimp only
  split
  · refine { conserves with count := ?_, order := order.trans (List.sublist_append_left _ _) }
    simp only [List.length_append, List.length_singleton]
    show _ = _ + _ + _ + buffer.inFlight.length
    omega
  · refine { count := ?_, order := ?_, depth := length_trim }
    · simp only [LedgerBuffer.trim, List.length_append, List.length_singleton, List.length_drop]
      show _ = _ + _ + _ + buffer.inFlight.length
      omega
    · have kept : (buffer.written ++ buffer.inFlight ++ (buffer.rows ++ [row])).Sublist
          (buffer.pushed ++ [row]) := by
        rw [← List.append_assoc]
        exact order.append_right _
      exact (List.Sublist.append_left (List.drop_sublist _ _) _).trans kept

theorem conserves_finish (conserves : Conserves buffer) : Conserves buffer.finish := by
  unfold finish
  split
  next settled =>
    have accounts := conserves.toAccounts
    rw [inFlight, settled] at accounts
    exact { accounts with depth := conserves.depth }
  next => exact conserves

theorem conserves_close (conserves : Conserves buffer) : Conserves buffer.close := by
  unfold close
  split
  · exact conserves
  · exact conserves_flush { conserves with }

theorem conserves_closeAfterFlush (conserves : Conserves buffer) :
    Conserves buffer.closeAfterFlush := by
  unfold closeAfterFlush
  split
  · have count := conserves.count
    refine { count := ?_, order := ?_, depth := Nat.zero_le _ }
    · show buffer.pushed.length = buffer.written.length +
        (buffer.droppedCount + buffer.rows.length) + 0 + buffer.inFlight.length
      omega
    · exact (List.Sublist.append_left (List.nil_sublist _) _).trans conserves.order
  · exact conserves

theorem conserves_step (conserves : Conserves buffer) (event : Event Row) :
    Conserves (buffer.step event) := by
  cases event with
  | push row => exact conserves_push conserves row
  | flush => exact conserves_flush conserves
  | appended answer => exact conserves_appended conserves answer
  | finish => exact conserves_finish conserves
  | close => exact conserves_close conserves
  | closeAfterFlush => exact conserves_closeAfterFlush conserves

theorem conserves_run (conserves : Conserves buffer) (events : List (Event Row)) :
    Conserves (buffer.run events) := by
  induction events generalizing buffer with
  | nil => exact conserves
  | cons event rest inductionHypothesis => exact inductionHypothesis (conserves_step conserves event)

theorem conserves_new (max : Nat) : Conserves (new max : LedgerBuffer Row) where
  count := rfl
  order := List.Sublist.refl _
  depth := Nat.zero_le _

/-! ### The depth is that of the buffer's making -/

theorem max_drain : buffer.drain.max = buffer.max := by
  unfold drain
  split <;> rfl

theorem max_flush : buffer.flush.max = buffer.max := by
  unfold flush
  split
  · exact max_drain
  · rfl

theorem max_isolate (untried : List Row) : (buffer.isolate untried).max = buffer.max := by
  cases untried with
  | nil => exact max_drain
  | cons row untried => rfl

theorem max_appended (answer : Appended) : (buffer.appended answer).max = buffer.max := by
  unfold appended
  split
  · exact max_drain
  · exact max_isolate _
  · rfl
  · exact max_isolate _
  · exact max_isolate _
  · rfl
  · rfl
  · rfl

theorem max_step (event : Event Row) : (buffer.step event).max = buffer.max := by
  cases event with
  | push row =>
    show (buffer.push row).max = _
    unfold push
    dsimp only
    split <;> rfl
  | flush => exact max_flush
  | appended answer => exact max_appended answer
  | finish =>
    show buffer.finish.max = _
    unfold finish
    split <;> rfl
  | close =>
    show buffer.close.max = _
    unfold close
    split
    · rfl
    · exact max_flush
  | closeAfterFlush =>
    show buffer.closeAfterFlush.max = _
    unfold closeAfterFlush
    split <;> rfl

theorem max_run (events : List (Event Row)) : (buffer.run events).max = buffer.max := by
  induction events generalizing buffer with
  | nil => rfl
  | cons event rest inductionHypothesis => exact inductionHypothesis.trans (max_step event)

end LedgerBuffer

end AiSwitcher.Gateway
