/-
This file proves that the writer does not stop without a reason: on a drive that does what it is
asked to, though it may take a write in parts as small as it likes, and while the approval and
the time last, every run ends with the whole plan written.

The point is the table of the device, which the writer rewrites while it keeps checking it. What
it expects of the table it does not read but works out from the bytes that the drive has taken,
and this always is the table of the drive (`Tracks`).
-/

import AiSwitcher.Host.WriteImageRuns

namespace AiSwitcher.Device

open Interrupted Program Storage
open Host (ByteRange)

/-! ### Healthy drives -/

/-- Both windows of a device as they are. -/
def tableOf (device : DeviceObservation) (bytes : Nat → UInt8) : ExpectedTable where
  head := window bytes 0 TABLE_WINDOW_BYTES
  tail := window bytes (device.capacityBytes.toNat - TABLE_WINDOW_BYTES) TABLE_WINDOW_BYTES

/-- What is seen of a device that holds these bytes. -/
def Hashing.observe (hashing : Hashing) (device : DeviceObservation) (bytes : Nat → UInt8) :
    DeviceObservation :=
  { device with
    tableFingerprint :=
      hashing.sha256 ((tableOf device bytes).head ++ (tableOf device bytes).tail) }

/-- How a drive and its surroundings behave that are all right: every call succeeds, the device
is seen as it is, and the clock stays between two readings. -/
def Drive.Healthy (hashing : Hashing) (device : DeviceObservation) (earliest latest : Nat) :
    Behaviour WriterAction Drive
  | _, .now, before, answer, after =>
      after = { before with reading := answer } ∧ earliest ≤ answer ∧ answer ≤ latest
  | _, .cancelled, before, answer, after => answer = false ∧ after = before
  | _, .revalidateSource, before, answer, after => answer = some () ∧ after = before
  | _, .lockExclusive, before, answer, after => answer = some () ∧ after = before
  | _, .flushDurable, before, answer, after => answer = some () ∧ after = before
  | _, .observe, before, answer, after =>
      answer = some (hashing.observe device before.bytes) ∧ after = { before with seen := answer }
  | _, .seek position, before, answer, after =>
      answer = some () ∧ after = { before with cursor := position }
  | _, .write data, before, answer, after =>
      ∃ count, answer = .accepted count ∧ count ≤ data.length ∧ (data ≠ [] → 0 < count) ∧
        after = before.store (data.take count)
  | _, .readExact count, before, answer, after =>
      answer = some (window before.bytes before.cursor count) ∧
        after = { before with cursor := before.cursor + count }
  | _, .readAt offset count, before, answer, after =>
      answer = some (window before.bytes offset count) ∧ after = before

/-- A drive, a plan and an approval of which nothing speaks against the write. -/
structure Fitting where
  hashing : Hashing
  image : VerifiedImage
  plan : WritePlan
  permit : Approval
  start : Nat → UInt8
  earliest : Nat
  latest : Nat
  seen : hashing.observe plan.device start = plan.device
  valid : plan.revalidate plan.device image = .ok ()
  windows : plan.phaseAware = true → TABLE_WINDOW_BYTES * 2 ≤ plan.device.capacityBytes.toNat
  within : ∀ write ∈ plan.writes, write.range.stop ≤ plan.device.capacityBytes.toNat
  digest : permit.plan = hashing.digest plan
  identifier : permit.identifier = plan.device.displayIdentifier
  unexpired : latest < permit.expires
  inTime : latest - earliest < BUDGET

namespace Fitting

variable {fitting : Fitting} {Result First : Type} {before after : Drive}

def Answers (fitting : Fitting) : Behaviour WriterAction Drive :=
  Drive.Healthy fitting.hashing fitting.plan.device fitting.earliest fitting.latest

def Succeeds (ends : Result → Drive → Prop) : Except Stopped Result → Drive → Prop
  | .ok result, after => ends result after
  | .error _, _ => False

/-- A program that succeeds on the drive. -/
def Smooth (fitting : Fitting) (program : Writer Result) (before : Drive)
    (ends : Result → Drive → Prop) : Prop :=
  program.safe fitting.Answers (fun _ _ => True) (Succeeds ends) before

section Smooth

variable {ends : Result → Drive → Prop}

theorem smooth_pure {result : Result} (holds : ends result before) :
    fitting.Smooth (pure result) before ends := holds

theorem smooth_bind {program : Writer First} {next : First → Writer Result}
    {between : First → Drive → Prop} (first : fitting.Smooth program before between)
    (second : ∀ result after, between result after → fitting.Smooth (next result) after ends) :
    fitting.Smooth (program >>= next) before ends := by
  refine safe_bind program before (safe_mono ?_ program before first)
  rintro (stopped | result) after ended
  · exact ended
  · exact second result after ended

theorem smooth_mono {program : Writer Result} {weaker : Result → Drive → Prop}
    (smooth : fitting.Smooth program before ends)
    (implies : ∀ result after, ends result after → weaker result after) :
    fitting.Smooth program before weaker := by
  refine safe_mono ?_ program before smooth
  rintro (stopped | result) after ended
  · exact ended
  · exact implies result after ended

theorem smooth_orStop {Answer : Type} {action : WriterAction (Option Answer)} {stopped : Stopped}
    {ends : Answer → Drive → Prop}
    (answered : ∀ answer after, fitting.Answers _ action before answer after →
      ∃ result, answer = some result ∧ ends result after) :
    fitting.Smooth (orStop action stopped) before ends := by
  intro answer after answers
  obtain ⟨result, rfl, holds⟩ := answered answer after answers
  exact ⟨trivial, holds⟩

theorem smooth_stopIf {condition : Bool} {stopped : Stopped} (passes : condition = false) :
    fitting.Smooth (stopIf condition stopped) before (fun _ after => after = before) := by
  rw [passes]
  exact smooth_pure rfl

theorem smooth_checked {outcome : Except DeviceError Result} {stopped : Stopped} {result : Result}
    (passes : outcome = .ok result) :
    fitting.Smooth (checked outcome stopped) before
      (fun found after => found = result ∧ after = before) := by
  rw [passes]
  exact smooth_pure ⟨rfl, rfl⟩

end Smooth

/-! ### The checks pass -/

theorem smooth_timeOver {budget : Nat} (isBudget : fitting.earliest ≤ budget) :
    fitting.Smooth (timeOver budget) before (fun late after =>
      late = false ∧ after.bytes = before.bytes ∧ after.cursor = before.cursor) := by
  rintro cancelled first ⟨rfl, rfl⟩
  refine ⟨trivial, ?_⟩
  rintro now second ⟨rfl, -, late⟩
  have inTime := fitting.inTime
  exact ⟨trivial, decide_eq_false (by omega), rfl, rfl⟩

theorem smooth_giveUpWhenOver {budget : Nat} {stopped : Stopped}
    (isBudget : fitting.earliest ≤ budget) :
    fitting.Smooth (giveUpWhenOver budget stopped) before (fun _ after =>
      after.bytes = before.bytes ∧ after.cursor = before.cursor) := by
  refine smooth_bind (smooth_timeOver isBudget) ?_
  rintro late after ⟨rfl, same⟩
  exact smooth_pure same

/-- The table that is expected is that of the drive. -/
def Tracks (fitting : Fitting) (progress : Progress) (drive : Drive) : Prop :=
  ∀ table, progress.table = some table → table = tableOf fitting.plan.device drive.bytes ∧
    TABLE_WINDOW_BYTES * 2 ≤ fitting.plan.device.capacityBytes.toNat

theorem smooth_readTableWindows {current : DeviceObservation} {stopped : Stopped}
    (large : TABLE_WINDOW_BYTES * 2 ≤ current.capacityBytes.toNat) :
    fitting.Smooth (readTableWindows current stopped) before (fun table after =>
      after = before ∧ table = tableOf current before.bytes) := by
  refine smooth_bind (smooth_stopIf (decide_eq_false (by omega))) ?_
  rintro - first rfl
  have readAt (offset : Nat) : fitting.Smooth (orStop (.readAt offset TABLE_WINDOW_BYTES) stopped)
      first (fun read after => after = first ∧ read = window first.bytes offset
        TABLE_WINDOW_BYTES) :=
    smooth_orStop fun answer after answers => ⟨_, answers.1, answers.2, rfl⟩
  refine smooth_bind (readAt _) ?_
  rintro head second ⟨rfl, isHead⟩
  refine smooth_bind (readAt _) ?_
  rintro tail third ⟨rfl, isTail⟩
  exact smooth_pure ⟨rfl, by rw [isHead, isTail, tableOf]⟩

theorem tableOf_observe (hashing : Hashing) (device : DeviceObservation)
    (bytes : Nat → UInt8) : tableOf (hashing.observe device bytes) bytes = tableOf device bytes :=
  rfl

/-- The table of a drive is the one that is seen. -/
theorem tableMatches_observe (hashing : Hashing) (device : DeviceObservation)
    (bytes : Nat → UInt8) :
    tableMatches hashing (hashing.observe device bytes)
      (tableOf (hashing.observe device bytes) bytes) (tableOf device bytes) = true := by
  have lengths : ¬ ((tableOf device bytes).head.length ≠ TABLE_WINDOW_BYTES ∨
      (tableOf device bytes).tail.length ≠ TABLE_WINDOW_BYTES) := by
    simp only [tableOf, length_window, ne_eq, not_true_eq_false, or_self, not_false_eq_true]
  rw [tableOf_observe, tableMatches, Hashing.tableFingerprint, if_neg lengths]
  simp only [Hashing.observe, decide_true, Bool.and_self]

theorem smooth_verifyExpectedTable {progress : Progress} {stopped : Stopped}
    (tracks : fitting.Tracks progress before) :
    fitting.Smooth (verifyExpectedTable fitting.hashing
      (fitting.hashing.observe fitting.plan.device before.bytes) progress.table stopped) before
      (fun _ after => after = before) := by
  cases isTable : progress.table with
  | none => exact smooth_pure rfl
  | some expected =>
    obtain ⟨rfl, large⟩ := tracks expected isTable
    refine smooth_bind (smooth_readTableWindows large) ?_
    rintro read after ⟨same, isRead⟩
    rw [same, isRead]
    rw [tableMatches_observe]
    exact smooth_stopIf (Bool.not_true)

/-- Only the table of the device is seen to change. -/
theorem observationStable_observe (bytes : Nat → UInt8) :
    observationStable fitting.plan
      (fitting.hashing.observe fitting.plan.device bytes) = true := by
  have valid : (fitting.hashing.observe fitting.plan.device bytes).validate = .ok () :=
    (revalidate_eq_ok.mp fitting.valid).1
  rw [observationStable, decide_eq_true valid]
  simp only [DeviceObservation.samePhysicalIdentity, Hashing.observe, decide_true, Bool.and_self]

theorem smooth_checkDevice {progress : Progress} (tracks : fitting.Tracks progress before) :
    fitting.Smooth (checkDevice fitting.hashing fitting.plan progress) before
      (fun current after => current = fitting.hashing.observe fitting.plan.device before.bytes ∧
        after = { before with seen := some current }) := by
  have observed : fitting.Smooth (orStop .observe
      (failure progress.written "device disconnected")) before (fun current after =>
        current = fitting.hashing.observe fitting.plan.device before.bytes ∧
          after = { before with seen := some current }) :=
    smooth_orStop fun answer after answers => ⟨_, answers.1, rfl, by rw [answers.2, answers.1]⟩
  refine smooth_bind observed ?_
  rintro current first ⟨isCurrent, isFirst⟩
  rw [isCurrent]
  refine smooth_bind (smooth_stopIf (by rw [observationStable_observe, Bool.not_true])) ?_
  rintro - second rfl
  have same : second.bytes = before.bytes := by rw [isFirst]
  have tracks : fitting.Tracks progress second := by
    unfold Tracks
    rw [same]
    exact tracks
  have verified : fitting.Smooth (verifyExpectedTable fitting.hashing
      (fitting.hashing.observe fitting.plan.device second.bytes) progress.table
      (failure progress.written "partition table changed")) second
      (fun _ after => after = second) := smooth_verifyExpectedTable tracks
  rw [same] at verified
  refine smooth_bind verified ?_
  rintro - third rfl
  exact smooth_pure ⟨rfl, by rw [isFirst, isCurrent]⟩

/-- Nothing has been written while the count is zero. -/
def Counts (fitting : Fitting) (progress : Progress) (drive : Drive) : Prop :=
  progress.written = 0 → drive.bytes = fitting.start

theorem smooth_checkMutation {progress : Progress} (tracks : fitting.Tracks progress before)
    (counts : fitting.Counts progress before) :
    fitting.Smooth (checkMutation fitting.hashing fitting.image fitting.plan fitting.permit
      progress) before (fun _ after =>
        after.bytes = before.bytes ∧ after.cursor = before.cursor) := by
  unfold checkMutation
  split
  · rename_i none
    refine smooth_bind (smooth_checkDevice tracks) ?_
    rintro current first ⟨isCurrent, rfl⟩
    rw [counts none, fitting.seen] at isCurrent
    rw [isCurrent]
    rintro now second ⟨rfl, -, late⟩
    refine ⟨trivial, ?_⟩
    have unexpired := fitting.unexpired
    have passes : fitting.permit.validateBeforeMutation fitting.hashing fitting.plan
        fitting.plan.device fitting.image now = .ok () := by
      have approved : ¬ (fitting.permit.expires ≤ now ∨
          fitting.permit.plan ≠ fitting.hashing.digest fitting.plan ∨
          fitting.permit.identifier ≠ fitting.plan.device.displayIdentifier) := by
        rw [not_or, not_or, not_not, not_not]
        exact ⟨by omega, fitting.digest, fitting.identifier⟩
      rw [Approval.validateBeforeMutation, if_neg approved]
      exact fitting.valid
    exact smooth_mono (smooth_checked passes) fun _ after same => by
      rw [same.2]
      exact ⟨rfl, rfl⟩
  · exact smooth_pure ⟨rfl, rfl⟩

/-! ### The table is kept up to date -/

theorem overlayWindow_window {bytes : Nat → UInt8} {base count offset : Nat} {data : Bytes}
    (small : base + count < 2 ^ 64) (fits : offset + data.length < 2 ^ 64) :
    overlayWindow (window bytes base count) base offset data =
      window (put bytes offset data) base count := by
  unfold overlayWindow
  rw [length_window, if_neg (by omega)]
  dsimp only
  split
  · rename_i apart
    exact (window_put_of_apart apart).symm
  · rename_i meets
    exact (window_put rfl rfl (Nat.lt_of_not_le meets)).symm

/-- The table that is worked out is the table after the write. -/
theorem Tracks.advance {left : Remaining} {count : Nat}
    (tracks : fitting.Tracks left.progress before) (cursor : left.offset = before.cursor)
    (fits : left.offset + left.bytes.length ≤ fitting.plan.device.capacityBytes.toNat) :
    fitting.Tracks (left.advance count fitting.plan.device.capacityBytes.toNat).progress
      (before.store (left.bytes.take count)) := by
  intro table isTable
  have small := fitting.plan.device.capacityBytes.toNat_lt
  have length : (left.bytes.take count).length ≤ left.bytes.length := List.length_take_le' _ _
  cases earlier : left.progress.table with
  | none =>
    unfold Remaining.advance at isTable
    dsimp only at isTable
    rw [earlier] at isTable
    exact absurd isTable.symm (Option.some_ne_none _)
  | some expected =>
    obtain ⟨isExpected, large⟩ := tracks expected earlier
    unfold Remaining.advance at isTable
    dsimp only at isTable
    rw [earlier, Option.map_some] at isTable
    obtain rfl := Option.some.inj isTable
    refine ⟨?_, large⟩
    rw [isExpected, ExpectedTable.overlay, tableOf, cursor]
    rw [cursor] at fits
    dsimp only
    rw [overlayWindow_window (by omega) (by omega), overlayWindow_window (by omega) (by omega)]
    rfl

/-! ### Writing -/

/-- Some of the bytes of a write are on the drive: `base` is what was there before. -/
structure Underway (fitting : Fitting) (base : Nat → UInt8) (offset : Nat) (data : Bytes)
    (earlier position : Nat) (progress : Progress) (drive : Drive) : Prop where
  bytes : drive.bytes = put base offset (data.take position)
  cursor : drive.cursor = offset + position
  written : progress.written = earlier + position
  tracks : fitting.Tracks progress drive
  counts : fitting.Counts progress drive

variable {base : Nat → UInt8} {offset earlier position upTo : Nat} {data : Bytes}
  {progress : Progress}

theorem Underway.same
    (underway : fitting.Underway base offset data earlier position progress before)
    (bytes : after.bytes = before.bytes) (cursor : after.cursor = before.cursor) :
    fitting.Underway base offset data earlier position progress after := by
  refine ⟨bytes.trans underway.bytes, cursor.trans underway.cursor, underway.written, ?_, ?_⟩
  · unfold Tracks
    rw [bytes]
    exact underway.tracks
  · exact fun none => bytes.trans (underway.counts none)

/-- What is left of a chunk that ends at `upTo`. -/
def Leaves (fitting : Fitting) (base : Nat → UInt8) (offset : Nat) (data : Bytes)
    (earlier upTo : Nat) (left : Remaining) (drive : Drive) : Prop :=
  ∃ position ≤ upTo,
    fitting.Underway base offset data earlier position left.progress drive ∧
    left.offset = offset + position ∧ left.bytes = (data.drop position).take (upTo - position)

def size (left : Remaining) : Nat := left.bytes.length

/-- What a round of writing a chunk ends in. -/
def Rounded (fitting : Fitting) (base : Nat → UInt8) (offset : Nat) (data : Bytes)
    (earlier upTo : Nat) (left : Remaining) : Remaining ⊕ Progress → Drive → Prop
  | .inl next, drive => fitting.Leaves base offset data earlier upTo next drive ∧
      size next < size left
  | .inr progress, drive => fitting.Underway base offset data earlier upTo progress drive

section Chunk

variable (inside : upTo ≤ data.length)
  (fits : offset + data.length ≤ fitting.plan.device.capacityBytes.toNat)

include inside fits

theorem smooth_writeRound {budget : Nat} {left : Remaining} (isBudget : fitting.earliest ≤ budget)
    (leaves : fitting.Leaves base offset data earlier upTo left before) :
    fitting.Smooth (writeRound fitting.hashing fitting.image fitting.plan fitting.permit budget
      fitting.plan.device.capacityBytes.toNat left) before
      (fitting.Rounded base offset data earlier upTo left) := by
  obtain ⟨position, within, underway, isOffset, bytes⟩ := leaves
  unfold writeRound
  split
  · rename_i isEmpty
    rw [List.isEmpty_iff, bytes, List.take_eq_nil_iff, List.drop_eq_nil_iff] at isEmpty
    obtain rfl : position = upTo := by omega
    exact underway
  rename_i notEmpty
  refine smooth_bind (smooth_giveUpWhenOver isBudget) fun _ first same => ?_
  have underway := underway.same same.1 same.2
  refine smooth_bind (smooth_checkMutation underway.tracks underway.counts)
    fun _ second same => ?_
  have underway := underway.same same.1 same.2
  refine safe_perform_bind ?_
  rintro answer after ⟨count, rfl, most, least, rfl⟩
  refine ⟨trivial, ?_⟩
  have positive := least (mt List.isEmpty_iff.mpr notEmpty)
  dsimp only
  rw [if_neg (by omega), if_neg (by omega)]
  have length : left.bytes.length = upTo - position := by
    rw [bytes, List.length_take, List.length_drop]
    omega
  have stored : left.bytes.take count = (data.drop position).take count := by
    rw [bytes, List.take_take, Nat.min_eq_left (by omega)]
  have storedLength : (left.bytes.take count).length = count := by
    rw [List.length_take]
    omega
  refine ⟨⟨position + count, by omega, ⟨?_, ?_, ?_, ?_, ?_⟩, ?_, ?_⟩, ?_⟩
  · show put second.bytes second.cursor (left.bytes.take count) = _
    rw [underway.bytes, underway.cursor, stored, List.take_add, put_append, List.length_take,
      Nat.min_eq_left (by omega)]
  · show second.cursor + (left.bytes.take count).length = _
    rw [underway.cursor, storedLength, Nat.add_assoc]
  · show left.progress.written + count = _
    rw [underway.written, Nat.add_assoc]
  · exact underway.tracks.advance (by rw [isOffset, underway.cursor]) (by omega)
  · intro none
    have written : left.progress.written + count = 0 := none
    omega
  · show left.offset + count = _
    rw [isOffset, Nat.add_assoc]
  · show left.bytes.drop count = _
    rw [bytes, List.drop_take, List.drop_drop, Nat.sub_sub]
  · show (left.bytes.drop count).length < left.bytes.length
    rw [List.length_drop]
    omega

theorem smooth_writeChunk {rounds budget start : Nat} (isBudget : fitting.earliest ≤ budget)
    (enough : CHUNK_BYTES < rounds) (short : upTo - position ≤ CHUNK_BYTES)
    (within : position ≤ upTo)
    (underway : fitting.Underway base offset data earlier position progress before)
    (isStart : start = offset + position) :
    fitting.Smooth (writeChunk fitting.hashing fitting.image fitting.plan rounds fitting.permit
      budget ((data.drop position).take (upTo - position)) start progress) before
      (fitting.Underway base offset data earlier upTo) := by
  have small := fitting.plan.device.capacityBytes.toNat_lt
  refine smooth_bind (smooth_giveUpWhenOver isBudget) fun _ first same => ?_
  have underway := underway.same same.1 same.2
  refine smooth_bind (smooth_checkDevice underway.tracks) ?_
  rintro current second ⟨rfl, rfl⟩
  refine smooth_bind (smooth_stopIf (decide_eq_false (by omega))) ?_
  rintro - third rfl
  have leaves : fitting.Leaves base offset data earlier upTo
      ⟨(data.drop position).take (upTo - position), start, progress⟩
      { first with seen := some (fitting.hashing.observe fitting.plan.device first.bytes) } :=
    ⟨position, within, underway.same rfl rfl, isStart, rfl⟩
  have few : size ⟨(data.drop position).take (upTo - position), start, progress⟩ < rounds :=
    Nat.lt_of_le_of_lt (List.length_take_le _ _) (by omega)
  refine Program.safe_bind _ _ (safe_iterate ?_ rounds _ _ leaves few)
  intro left world leaves
  refine safe_mono ?_ _ _ (smooth_writeRound inside fits isBudget leaves)
  rintro (stopped | next | progress) after ended
  · exact ended
  · exact ended
  · refine smooth_bind (smooth_checkDevice (Underway.tracks ended)) ?_
    rintro current last ⟨-, rfl⟩
    exact smooth_pure (Underway.same ended rfl rfl)

end Chunk

theorem smooth_writeChunks {rounds budget count : Nat} (isBudget : fitting.earliest ≤ budget)
    (enough : CHUNK_BYTES < rounds)
    (fits : offset + data.length ≤ fitting.plan.device.capacityBytes.toNat) :
    ∀ {index : Nat} {progress : Progress} {before : Drive},
      index + count = chunkCount data.length →
      fitting.Underway base offset data earlier (min (index * CHUNK_BYTES) data.length) progress
        before →
      fitting.Smooth (writeChunks fitting.hashing fitting.image fitting.plan rounds fitting.permit
        budget offset ((List.range' index count).map fun index =>
          (chunkAt data data.length index, index)) progress) before
        (fitting.Underway base offset data earlier data.length) := by
  induction count with
  | zero =>
    intro index progress before isCount underway
    have beyond : data.length ≤ index * CHUNK_BYTES := chunkCount_le.mp (by omega)
    rw [Nat.min_eq_right beyond] at underway
    rw [List.range'_zero, List.map_nil]
    exact underway
  | succ count inductionHypothesis =>
    intro index progress before isCount underway
    obtain ⟨under, chunk⟩ := @chunkAt_of_lt data index (by omega)
    have next : (index + 1) * CHUNK_BYTES = index * CHUNK_BYTES + CHUNK_BYTES :=
      Nat.succ_mul index CHUNK_BYTES
    have short : min ((index + 1) * CHUNK_BYTES) data.length - index * CHUNK_BYTES ≤ CHUNK_BYTES :=
      Nat.sub_le_of_le_add ((Nat.min_le_left _ _).trans_eq (next.trans (Nat.add_comm _ _)))
    have within : index * CHUNK_BYTES ≤ min ((index + 1) * CHUNK_BYTES) data.length :=
      Nat.le_min.mpr ⟨Nat.le_of_add_right_le (Nat.le_of_eq next.symm), under⟩
    rw [Nat.min_eq_left under] at underway
    rw [List.range'_succ, List.map_cons, chunk]
    refine smooth_bind (smooth_writeChunk (Nat.min_le_right _ _) fits isBudget enough short within
      underway rfl) fun progress after ended => ?_
    exact inductionHypothesis (by omega) ended

theorem smooth_readBack {budget written : Nat} (isBudget : fitting.earliest ≤ budget) :
    ∀ {chunks : List Bytes} {before : Drive},
      window before.bytes before.cursor chunks.flatten.length = chunks.flatten →
      fitting.Smooth (readBack budget written chunks) before
        (fun _ after => after.bytes = before.bytes) := by
  intro chunks
  induction chunks with
  | nil => exact fun _ => smooth_pure rfl
  | cons expected rest inductionHypothesis =>
    intro before found
    rw [List.flatten_cons, List.length_append, window_add] at found
    obtain ⟨isExpected, isRest⟩ := List.append_inj found (length_window _ _ _)
    refine smooth_bind (smooth_timeOver isBudget) ?_
    rintro late first ⟨rfl, bytes, cursor⟩
    refine smooth_bind (smooth_stopIf rfl) ?_
    rintro - second rfl
    have read : fitting.Smooth (orStop (.readExact expected.length)
        (failure written "readback failed")) second (fun read after => read = expected ∧
          after.bytes = before.bytes ∧ after.cursor = before.cursor + expected.length) :=
      smooth_orStop fun answer after answers => by
        obtain ⟨rfl, rfl⟩ := answers
        exact ⟨_, rfl, by rw [bytes, cursor, isExpected], bytes, by rw [← cursor]⟩
    refine smooth_bind read ?_
    rintro read third ⟨rfl, bytes, cursor⟩
    refine smooth_bind (smooth_stopIf (decide_eq_false (not_not.mpr rfl))) ?_
    rintro - fourth rfl
    refine smooth_mono (inductionHypothesis ?_) fun _ after same => same.trans bytes
    rw [bytes, cursor]
    exact isRest

theorem smooth_seek {position : Nat} {stopped : Stopped} :
    fitting.Smooth (orStop (.seek position) stopped) before
      (fun _ after => after = { before with cursor := position }) :=
  smooth_orStop fun _ _ answers => ⟨(), answers⟩

/-- The ranges so far are done. -/
structure Between (fitting : Fitting) (written : Nat) (progress : Progress) (drive : Drive) :
    Prop where
  written : progress.written = written
  tracks : fitting.Tracks progress drive
  counts : fitting.Counts progress drive

theorem Between.same (between : fitting.Between earlier progress before)
    (bytes : after.bytes = before.bytes) : fitting.Between earlier progress after :=
  ⟨between.written, by unfold Tracks; rw [bytes]; exact between.tracks,
    fun none => bytes.trans (between.counts none)⟩

theorem smooth_writeRange {rounds budget : Nat} {write : PlannedWrite}
    (isBudget : fitting.earliest ≤ budget) (enough : CHUNK_BYTES < rounds)
    (hasSource : write.hasSource fitting.image = true)
    (within : write.range.stop ≤ fitting.plan.device.capacityBytes.toNat)
    (between : fitting.Between earlier progress before) :
    fitting.Smooth (writeRange fitting.hashing fitting.image fitting.plan rounds fitting.permit
      budget write progress) before
      (fitting.Between (earlier + (write.data fitting.image).length)) := by
  obtain ⟨isExpected, length⟩ := Run.expected_of_hasSource hasSource
  have revalidated : fitting.Smooth (revalidateFirst progress.written) before
      (fun _ after => after = before) := by
    unfold revalidateFirst
    split
    · exact smooth_orStop fun _ _ answers => ⟨(), answers⟩
    · exact smooth_pure rfl
  refine smooth_bind revalidated ?_
  rintro - first rfl
  dsimp only
  rw [isExpected]
  dsimp only
  rw [← length, zipIdx_chunks]
  refine smooth_bind smooth_seek ?_
  rintro - second rfl
  have fits : write.range.start.toNat + (write.data fitting.image).length ≤
      fitting.plan.device.capacityBytes.toNat := by
    rw [length]
    exact within
  have underway : fitting.Underway first.bytes write.range.start.toNat (write.data fitting.image)
      earlier (min (0 * CHUNK_BYTES) (write.data fitting.image).length) progress
      { first with cursor := write.range.start.toNat } := by
    rw [Nat.zero_mul, Nat.zero_min]
    exact ⟨by rw [List.take_zero, put_nil], rfl, between.written, between.tracks,
      between.counts⟩
  refine smooth_bind (smooth_writeChunks isBudget enough fits (Nat.zero_add _) underway)
    fun progress third underway => ?_
  have flushed : fitting.Smooth (orStop .flushDurable (failure progress.written "flush failed"))
      third (fun _ after => after = third) := smooth_orStop fun _ _ answers => ⟨(), answers⟩
  refine smooth_bind flushed ?_
  rintro - fourth rfl
  refine smooth_bind smooth_seek ?_
  rintro - fifth rfl
  have found : window fourth.bytes write.range.start.toNat (write.data fitting.image).length =
      write.data fitting.image := by
    have inside := @window_put_inside _ first.bytes write.range.start.toNat 0
      (write.data fitting.image).length (write.data fitting.image) (by omega)
    rw [Nat.add_zero, List.drop_zero, List.take_length] at inside
    rw [underway.bytes, List.take_length, inside]
  refine smooth_bind (smooth_readBack isBudget ?_) fun _ last same => ?_
  · rw [flatten_chunks]
    exact found
  · exact smooth_pure (Between.same ⟨underway.written, underway.tracks, underway.counts⟩ same)

theorem smooth_writeRanges {rounds budget : Nat} (isBudget : fitting.earliest ≤ budget)
    (enough : CHUNK_BYTES < rounds) : ∀ {writes : List PlannedWrite} {earlier : Nat}
    {progress : Progress} {before : Drive},
    (∀ write ∈ writes, write.hasSource fitting.image = true) →
    (∀ write ∈ writes, write.range.stop ≤ fitting.plan.device.capacityBytes.toNat) →
    fitting.Between earlier progress before →
    fitting.Smooth (writeRanges fitting.hashing fitting.image fitting.plan rounds fitting.permit
      budget writes progress) before
      (fitting.Between (earlier + total (writes.map (PlannedWrite.segment fitting.image)))) := by
  intro writes
  induction writes with
  | nil => exact fun _ _ between => smooth_pure between
  | cons write writes inductionHypothesis =>
    intro earlier progress before hasSource within between
    refine smooth_bind (smooth_writeRange isBudget enough (hasSource write List.mem_cons_self)
      (within write List.mem_cons_self) between) fun progress after between => ?_
    rw [List.map_cons, total_cons, ← Nat.add_assoc]
    exact inductionHypothesis (fun other member => hasSource other (.tail _ member))
      (fun other member => within other (.tail _ member)) between

/-! ### The whole run -/

theorem tableFingerprint_tableOf (hashing : Hashing) (device : DeviceObservation)
    (bytes : Nat → UInt8) :
    hashing.tableFingerprint (tableOf device bytes).head (tableOf device bytes).tail =
      .ok (hashing.observe device bytes).tableFingerprint := by
  have lengths : ¬ ((tableOf device bytes).head.length ≠ TABLE_WINDOW_BYTES ∨
      (tableOf device bytes).tail.length ≠ TABLE_WINDOW_BYTES) := by
    simp only [tableOf, length_window, ne_eq, not_true_eq_false, or_self, not_false_eq_true]
  rw [Hashing.tableFingerprint, if_neg lengths]
  rfl

theorem smooth_expectTable (isStart : before.bytes = fitting.start) :
    fitting.Smooth (expectTable fitting.hashing fitting.plan fitting.plan.device) before
      (fun table after => after = before ∧ fitting.Tracks ⟨0, table⟩ before) := by
  unfold expectTable
  split
  · rename_i phaseAware
    have large := fitting.windows phaseAware
    refine smooth_bind (smooth_readTableWindows large) ?_
    rintro table first ⟨same, isTable⟩
    have fingerprint : fitting.hashing.tableFingerprint table.head table.tail =
        .ok fitting.plan.device.tableFingerprint := by
      rw [isTable, tableFingerprint_tableOf, isStart, fitting.seen]
    refine smooth_bind (smooth_checked fingerprint) ?_
    rintro observed second ⟨rfl, rfl⟩
    have same' : (decide (fitting.plan.device.tableFingerprint ≠
        fitting.plan.device.tableFingerprint) || decide (fitting.plan.device.tableFingerprint ≠
        fitting.plan.device.tableFingerprint)) = false := by
      simp only [ne_eq, not_true_eq_false, decide_false, Bool.or_self]
    refine smooth_bind (smooth_stopIf same') ?_
    rintro - third rfl
    refine smooth_pure ⟨same, fun other isSome => ?_⟩
    obtain rfl := Option.some.inj isSome
    exact ⟨isTable, large⟩
  · exact smooth_pure ⟨rfl, fun _ isSome => absurd isSome.symm (Option.some_ne_none _)⟩

theorem smooth_writeApproved {rounds : Nat} (enough : CHUNK_BYTES < rounds)
    (isStart : before.bytes = fitting.start) :
    fitting.Smooth (writeApproved fitting.hashing fitting.image fitting.plan rounds
      fitting.permit) before
      (fun written _ => written = total (fitting.plan.segments fitting.image)) := by
  have cancelled (drive : Drive) : fitting.Smooth (perform .cancelled) drive
      (fun cancelled after => cancelled = false ∧ after = drive) :=
    fun _ _ answers => ⟨trivial, answers⟩
  have revalidated (drive : Drive) (stopped : Stopped) : fitting.Smooth
      (orStop .revalidateSource stopped) drive (fun _ after => after = drive) :=
    smooth_orStop fun _ _ answers => ⟨(), answers⟩
  refine smooth_bind (cancelled before) ?_
  rintro - drive ⟨rfl, rfl⟩
  refine smooth_bind (smooth_stopIf rfl) ?_
  rintro - drive rfl
  refine smooth_bind (revalidated _ _) ?_
  rintro - drive rfl
  have locked : fitting.Smooth (orStop .lockExclusive (refused "exclusive access")) drive
      (fun _ after => after = drive) := smooth_orStop fun _ _ answers => ⟨(), answers⟩
  refine smooth_bind locked ?_
  rintro - drive rfl
  have observed : fitting.Smooth (orStop .observe (refused "device observation")) drive
      (fun current after => current = fitting.plan.device ∧ after.bytes = fitting.start) :=
    smooth_orStop fun answer after answers => by
      obtain ⟨rfl, rfl⟩ := answers
      exact ⟨_, rfl, by rw [isStart, fitting.seen], isStart⟩
  refine smooth_bind observed ?_
  rintro current drive ⟨rfl, isStart⟩
  refine smooth_bind (smooth_checked fitting.valid) ?_
  rintro - drive ⟨-, rfl⟩
  refine smooth_bind (smooth_expectTable isStart) ?_
  rintro table drive ⟨rfl, tracks⟩
  refine smooth_bind (cancelled _) ?_
  rintro - drive ⟨rfl, rfl⟩
  refine smooth_bind (smooth_stopIf rfl) ?_
  rintro - drive rfl
  have read : fitting.Smooth (perform .now) drive (fun budget after =>
      fitting.earliest ≤ budget ∧ after = { drive with reading := budget }) :=
    fun _ _ answers => ⟨trivial, answers.2.1, answers.1⟩
  refine smooth_bind read ?_
  rintro budget timed ⟨isBudget, rfl⟩
  have between : fitting.Between 0 ⟨0, table⟩ { drive with reading := budget } :=
    ⟨rfl, tracks, fun _ => isStart⟩
  refine smooth_bind (smooth_writeRanges isBudget enough (revalidate_eq_ok.mp fitting.valid).2.2.2.2
    fitting.within between) fun progress fourth between => ?_
  refine smooth_bind (revalidated _ _) ?_
  rintro - drive rfl
  refine smooth_bind (smooth_checkDevice between.tracks) fun _ _ _ => ?_
  refine smooth_pure ?_
  rw [between.written, Nat.zero_add]
  rfl

end Fitting

theorem smooth_writeImage {fitting : Fitting} {rounds : Nat} {book : ConfirmationBook}
    {ticket : Fingerprint} {before : Drive} (enough : CHUNK_BYTES < rounds)
    (approved : book.approvals ticket = some fitting.permit)
    (isStart : before.bytes = fitting.start) :
    fitting.Smooth (writeImage fitting.hashing fitting.image fitting.plan rounds book ticket) before
      (fun written _ => written = total (fitting.plan.segments fitting.image)) := by
  have read : fitting.Smooth (perform .now) before (fun now after =>
      now < fitting.permit.expires ∧ after.bytes = before.bytes) := by
    rintro now after ⟨rfl, -, late⟩
    have unexpired := fitting.unexpired
    exact ⟨trivial, by omega, rfl⟩
  refine Fitting.smooth_bind read ?_
  rintro now after ⟨unexpired, same⟩
  have reserved : (book.reserve fitting.hashing ticket fitting.plan now).1 =
      .ok fitting.permit := by
    have notStale : ¬ (fitting.permit.expires ≤ now ∨
        fitting.permit.plan ≠ fitting.hashing.digest fitting.plan) := by
      rw [not_or, not_not]
      exact ⟨by omega, fitting.digest⟩
    unfold ConfirmationBook.reserve
    rw [approved]
    dsimp only
    rw [if_neg notStale]
  rw [reserved]
  exact Fitting.smooth_writeApproved enough (same.trans isStart)

/-- A healthy drive is a drive that stores what it accepts. -/
theorem Drive.answers_of_healthy {hashing : Hashing} {device : DeviceObservation}
    {earliest latest : Nat} (Answer : Type) (action : WriterAction Answer) (before : Drive)
    (answer : Answer) (after : Drive)
    (healthy : Drive.Healthy hashing device earliest latest Answer action before answer after) :
    Drive.Answers True Answer action before answer after := by
  cases action with
  | now => exact healthy.1
  | cancelled => exact healthy.2
  | revalidateSource => exact healthy.2
  | lockExclusive => exact healthy.2
  | flushDurable => exact healthy.2
  | observe => exact healthy.2
  | seek position => exact ⟨position, healthy.2, fun _ => rfl⟩
  | write data =>
    obtain ⟨count, rfl, most, -, isAfter⟩ := healthy
    exact ⟨data.take count, by rw [List.length_take, Nat.min_eq_left most], most, fun _ => rfl,
      isAfter⟩
  | readExact count =>
    obtain ⟨rfl, isAfter⟩ := healthy
    exact ⟨_, isAfter, fun read isRead => ⟨(Option.some.inj isRead).symm, rfl⟩⟩
  | readAt offset count =>
    obtain ⟨rfl, rfl⟩ := healthy
    exact ⟨_, rfl, fun read isRead => ⟨(Option.some.inj isRead).symm, rfl⟩⟩

/-- The sample, with a clock that stands at zero. -/
def sampleFitting : Fitting where
  hashing := sampleHashing
  image := sampleImage
  plan := samplePlan
  permit := ⟨sampleDigest, "Stick", 1⟩
  start := fun _ => 0
  earliest := 0
  latest := 0
  seen := rfl
  valid := by decide
  windows := fun phaseAware => absurd phaseAware (by decide)
  within := by decide
  digest := rfl
  identifier := rfl
  unexpired := by decide
  inTime := by decide

theorem sampleFitting_answers (Answer : Type) (action : WriterAction Answer) (drive : Drive)
    (isZero : drive.reading = 0) :
    sampleFitting.Answers Answer action drive (Drive.obey sampleDevice Answer action drive).1
        (Drive.obey sampleDevice Answer action drive).2 ∧
      (Drive.obey sampleDevice Answer action drive).2.reading = 0 := by
  cases action with
  | now => exact ⟨⟨rfl, Nat.zero_le _, Nat.le_of_eq isZero⟩, isZero⟩
  | write data =>
    refine ⟨⟨data.length, rfl, Nat.le_refl _, List.length_pos_iff.mpr, ?_⟩, isZero⟩
    rw [List.take_length]
    rfl
  | _ => exact ⟨⟨rfl, rfl⟩, isZero⟩

end AiSwitcher.Device
