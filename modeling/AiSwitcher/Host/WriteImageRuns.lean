/-
This file proves what a run of the writer makes of a drive, wherever it ends or is cut off.
A drive may fail or interrupt every call, lie about itself, accept as few bytes of a write as it
likes, and store something else in their place; it does not change what it was not asked to write,
and it reads what it has.

All that the writer does before, between and after its writes leaves the bytes of the drive alone
(`Quietly`). The writes come one behind the other, so the bytes are always those of the writes
that are done and of a part of the next one (`Partway`), as many as the writer has counted.
-/

import AiSwitcher.Host.WriteImage

namespace AiSwitcher.Device

open Interrupted Program Storage
open Host (ByteRange)

/-! ### Drives -/

/-- A drive, with the last reading of the clock, the last observation, and what both were when
the first byte was written. -/
structure Drive where
  bytes : Nat → UInt8
  cursor : Nat
  reading : Nat
  seen : Option DeviceObservation
  mutation : Option (Nat × Option DeviceObservation)

/-- Bytes that take the place of as many at the cursor. -/
def Drive.store (drive : Drive) (stored : Bytes) : Drive :=
  { drive with
    bytes := put drive.bytes drive.cursor stored
    cursor := drive.cursor + stored.length
    mutation := if stored = [] then drive.mutation
      else drive.mutation.or (some (drive.reading, drive.seen)) }

/-- What a drive may answer. An `exact` one stores what it accepts. -/
def Drive.Answers (exact : Prop) : Behaviour WriterAction Drive
  | _, .now, before, answer, after => after = { before with reading := answer }
  | _, .cancelled, before, _, after => after = before
  | _, .revalidateSource, before, _, after => after = before
  | _, .lockExclusive, before, _, after => after = before
  | _, .flushDurable, before, _, after => after = before
  | _, .observe, before, answer, after => after = { before with seen := answer }
  | _, .seek position, before, answer, after =>
      ∃ cursor, after = { before with cursor := cursor } ∧ (answer = some () → cursor = position)
  | _, .write data, before, answer, after =>
      match answer with
      | .accepted count => ∃ stored, stored.length = count ∧ count ≤ data.length ∧
          (exact → stored = data.take count) ∧ after = before.store stored
      | .interrupted | .failed => after = before
  | _, .readExact count, before, answer, after =>
      ∃ cursor, after = { before with cursor := cursor } ∧ ∀ read, answer = some read →
        read = window before.bytes before.cursor count ∧ cursor = before.cursor + count
  | _, .readAt offset count, before, answer, after =>
      ∃ cursor, after = { before with cursor := cursor } ∧ ∀ read, answer = some read →
        read = window before.bytes offset count ∧ cursor = before.cursor

/-- Going on after a call whose error ends the writer. -/
theorem safe_orStop_bind {behaviour : Behaviour WriterAction Drive} {Answer Result : Type}
    {guarantee : Drive → Drive → Prop} {post : Except Stopped Result → Drive → Prop}
    {action : WriterAction (Option Answer)} {stopped : Stopped} {next : Answer → Writer Result}
    {drive : Drive}
    (passed : ∀ answer after, behaviour _ action drive (some answer) after →
      guarantee drive after ∧ (next answer).safe behaviour guarantee post after)
    (failed : ∀ after, behaviour _ action drive none after →
      guarantee drive after ∧ post (.error stopped) after) :
    (orStop action stopped >>= next).safe behaviour guarantee post drive := by
  intro answer after answers
  cases answer with
  | none => exact failed after answers
  | some answer => exact passed answer after answers

/-! ### Quiet programs -/

/-- Nothing has been written. -/
structure Untouched (before after : Drive) : Prop where
  bytes : after.bytes = before.bytes
  mutation : after.mutation = before.mutation

theorem Untouched.refl (drive : Drive) : Untouched drive drive := ⟨rfl, rfl⟩

theorem Untouched.trans {first second third : Drive} (one : Untouched first second)
    (two : Untouched second third) : Untouched first third :=
  ⟨two.bytes.trans one.bytes, two.mutation.trans one.mutation⟩

variable {exact : Prop} {Result First : Type}

/-- How a quiet program ends: it has written nothing, it has left the cursor where it was if it
succeeds, and it stops as is said. -/
def Quiet (before : Drive) (ends : Result → Drive → Prop) (stops : Stopped → Prop) :
    Except Stopped Result → Drive → Prop
  | .ok result, after =>
      Untouched before after ∧ after.cursor = before.cursor ∧ ends result after
  | .error stopped, after => Untouched before after ∧ stops stopped

/-- A program that writes nothing and leaves the cursor where it was. -/
def Quietly (exact : Prop) (program : Writer Result) (before : Drive)
    (ends : Result → Drive → Prop) (stops : Stopped → Prop) : Prop :=
  program.safe (Drive.Answers exact) (fun _ after => Untouched before after)
    (Quiet before ends stops) before

section Quiet

variable {before : Drive} {ends : Result → Drive → Prop} {stops : Stopped → Prop}

/-- A quiet program from a drive that is like the one that is spoken of. -/
theorem quietly_from {program : Writer Result} {between : Drive}
    (untouched : Untouched before between) (same : between.cursor = before.cursor)
    (quietly : Quietly exact program between ends stops) :
    program.safe (Drive.Answers exact) (fun _ after => Untouched before after)
      (Quiet before ends stops) between := by
  refine safe_mono ?_ program between
    (safe_mono_guarantee (fun _ _ kept => untouched.trans kept) program between quietly)
  intro outcome after ended
  cases outcome with
  | ok result => exact ⟨untouched.trans ended.1, ended.2.1.trans same, ended.2.2⟩
  | error stopped => exact ⟨untouched.trans ended.1, ended.2⟩

theorem quietly_pure {result : Result} (holds : ends result before) :
    Quietly exact (pure result) before ends stops :=
  ⟨.refl before, rfl, holds⟩

theorem quietly_fail {stopped : Stopped} (holds : stops stopped) :
    Quietly exact (.fail stopped : Writer Result) before ends stops :=
  ⟨.refl before, holds⟩

theorem quietly_mono {program : Writer Result} {weaker : Result → Drive → Prop}
    (quietly : Quietly exact program before ends stops)
    (implies : ∀ result after, ends result after → weaker result after) :
    Quietly exact program before weaker stops := by
  refine safe_mono ?_ program before quietly
  intro outcome after ended
  cases outcome with
  | ok result => exact ⟨ended.1, ended.2.1, implies result after ended.2.2⟩
  | error stopped => exact ended

theorem quietly_bind {program : Writer First} {next : First → Writer Result}
    {between : First → Drive → Prop} (first : Quietly exact program before between stops)
    (second : ∀ result after, Untouched before after → after.cursor = before.cursor →
      between result after → Quietly exact (next result) after ends stops) :
    Quietly exact (program >>= next) before ends stops := by
  refine safe_bind program before (safe_mono ?_ program before first)
  intro outcome after ended
  cases outcome with
  | ok result =>
    obtain ⟨untouched, same, holds⟩ := ended
    exact quietly_from untouched same (second result after untouched same holds)
  | error stopped => exact ended

/-- A quiet program in front of one that is not. -/
theorem safe_quietly_bind {guarantee : Drive → Drive → Prop} {program : Writer First}
    {next : First → Writer Result} {between : First → Drive → Prop}
    {post : Except Stopped Result → Drive → Prop}
    (quietly : Quietly exact program before between stops)
    (keeps : ∀ world after, Untouched before after → guarantee world after)
    (goesOn : ∀ result after, Untouched before after → after.cursor = before.cursor →
      between result after → (next result).safe (Drive.Answers exact) guarantee post after)
    (stopped : ∀ reason after, Untouched before after → stops reason → post (.error reason) after) :
    (program >>= next).safe (Drive.Answers exact) guarantee post before := by
  refine safe_bind program before (safe_mono ?_ program before
    (safe_mono_guarantee (fun world after => keeps world after) program before quietly))
  intro outcome after ended
  cases outcome with
  | ok result => exact goesOn result after ended.1 ended.2.1 ended.2.2
  | error reason => exact stopped reason after ended.1 ended.2

/-! ### The quiet parts of the writer -/

theorem quietly_now :
    Quietly exact (perform .now) before (fun now after => after = { before with reading := now })
      stops := by
  rintro now after rfl
  exact ⟨⟨rfl, rfl⟩, ⟨rfl, rfl⟩, rfl, rfl⟩

theorem quietly_cancelled :
    Quietly exact (perform .cancelled) before (fun _ after => after = before) stops := by
  rintro answer after rfl
  exact ⟨.refl after, .refl after, rfl, rfl⟩

theorem quietly_flushDurable :
    Quietly exact (perform .flushDurable) before (fun _ after => after = before) stops := by
  rintro answer after rfl
  exact ⟨.refl after, .refl after, rfl, rfl⟩

/-- A call that changes nothing but what is known of the drive. -/
theorem quietly_orStop {Answer : Type} {action : WriterAction (Option Answer)} {stopped : Stopped}
    {ends : Answer → Drive → Prop}
    (answered : ∀ answer after, Drive.Answers exact _ action before answer after →
      Untouched before after ∧ ∀ result, answer = some result →
        after.cursor = before.cursor ∧ ends result after)
    (holds : stops stopped) : Quietly exact (orStop action stopped) before ends stops := by
  intro answer after answers
  obtain ⟨untouched, isSome⟩ := answered answer after answers
  refine ⟨untouched, ?_⟩
  cases answer with
  | none => exact ⟨untouched, holds⟩
  | some result => exact ⟨untouched, isSome result rfl⟩

theorem quietly_revalidateSource {stopped : Stopped} (holds : stops stopped) :
    Quietly exact (orStop .revalidateSource stopped) before (fun _ after => after = before)
      stops :=
  quietly_orStop (fun _ after same => by
    obtain rfl : after = before := same
    exact ⟨.refl after, fun _ _ => ⟨rfl, rfl⟩⟩) holds

theorem quietly_observe {stopped : Stopped} (holds : stops stopped) :
    Quietly exact (orStop .observe stopped) before
      (fun current after => after.seen = some current) stops :=
  quietly_orStop (fun answer after same => by
    obtain rfl : after = { before with seen := answer } := same
    exact ⟨⟨rfl, rfl⟩, fun _ isSome => ⟨rfl, isSome⟩⟩) holds

theorem quietly_checked {outcome : Except DeviceError Result} {stopped : Stopped}
    (passed : ∀ result, outcome = .ok result → ends result before) (holds : stops stopped) :
    Quietly exact (checked outcome stopped) before ends stops := by
  cases outcome with
  | ok result => exact quietly_pure (passed result rfl)
  | error error => exact quietly_fail holds

theorem quietly_timeOver {budget : Nat} :
    Quietly exact (timeOver budget) before (fun _ _ => True) stops := by
  refine quietly_bind quietly_cancelled fun cancelled after _ _ _ => ?_
  cases cancelled with
  | true => exact quietly_pure trivial
  | false => exact quietly_bind quietly_now fun _ _ _ _ _ => quietly_pure trivial

theorem quietly_stopIf {condition : Bool} {stopped : Stopped} (holds : stops stopped) :
    Quietly exact (stopIf condition stopped) before
      (fun _ after => after = before ∧ condition = false) stops := by
  cases condition with
  | true => exact quietly_fail holds
  | false => exact quietly_pure ⟨rfl, rfl⟩

theorem quietly_giveUpWhenOver {budget : Nat} {stopped : Stopped} (holds : stops stopped) :
    Quietly exact (giveUpWhenOver budget stopped) before (fun _ _ => True) stops := by
  refine quietly_bind quietly_timeOver fun late after _ _ _ => ?_
  cases late with
  | false => exact quietly_pure trivial
  | true => exact quietly_bind quietly_flushDurable fun _ _ _ _ _ => quietly_fail holds

/-- The windows are read as they are. -/
theorem quietly_readTableWindows {current : DeviceObservation} {stopped : Stopped}
    (holds : stops stopped) :
    Quietly exact (readTableWindows current stopped) before (fun table after =>
      after.seen = before.seen ∧ table.head = window before.bytes 0 TABLE_WINDOW_BYTES ∧
        table.tail = window before.bytes (current.capacityBytes.toNat - TABLE_WINDOW_BYTES)
          TABLE_WINDOW_BYTES) stops := by
  have readAt (offset : Nat) (drive : Drive) :
      Quietly exact (orStop (.readAt offset TABLE_WINDOW_BYTES) stopped) drive
        (fun read after => after.seen = drive.seen ∧
          read = window drive.bytes offset TABLE_WINDOW_BYTES) stops := by
    refine quietly_orStop ?_ holds
    rintro answer after ⟨cursor, rfl, found⟩
    exact ⟨⟨rfl, rfl⟩, fun read isSome => ⟨(found read isSome).2, rfl, (found read isSome).1⟩⟩
  refine quietly_bind (quietly_stopIf holds) ?_
  rintro - after - - ⟨rfl, -⟩
  refine quietly_bind (readAt _ after) ?_
  rintro head afterHead untouchedHead - ⟨seenHead, isHead⟩
  refine quietly_bind (readAt _ afterHead) ?_
  rintro tail afterTail untouchedTail - ⟨seenTail, isTail⟩
  exact quietly_pure ⟨seenTail.trans seenHead, isHead, by rw [isTail, untouchedHead.bytes]⟩

variable {hashing : Hashing} {image : VerifiedImage} {plan : WritePlan}

/-- The device is as planned, and its last observation is the one that is returned. -/
theorem quietly_checkDevice {progress : Progress}
    (holds : ∀ reason, stops (failure progress.written reason)) :
    Quietly exact (checkDevice hashing plan progress) before (fun current after =>
      after.seen = some current ∧ observationStable plan current = true) stops := by
  refine quietly_bind (quietly_observe (holds _)) ?_
  rintro current after - - seen
  refine quietly_bind (quietly_stopIf (holds _)) ?_
  rintro - same - - ⟨rfl, stable⟩
  have verified : Quietly exact (verifyExpectedTable hashing current progress.table
      (failure progress.written "partition table changed")) same
      (fun _ after => after.seen = some current) stops := by
    cases progress.table with
    | none => exact quietly_pure seen
    | some expected =>
      refine quietly_bind (quietly_readTableWindows (holds _)) ?_
      rintro read after - - ⟨seenAfter, -⟩
      exact quietly_mono (quietly_stopIf (holds _)) fun _ _ ended => by
        rw [ended.1, seenAfter, seen]
  exact quietly_bind verified fun _ after _ _ seen =>
    quietly_pure ⟨seen, (Bool.not_eq_false' _).mp stable⟩

end Quiet

/-! ### Chunks -/

theorem zipIdx_map_range {Piece : Type} (piece : Nat → Piece) (count : Nat) :
    ((List.range count).map piece).zipIdx =
      (List.range' 0 count).map fun index => (piece index, index) := by
  rw [List.range_eq_range']
  refine List.ext_getElem ?_ fun index _ _ => ?_
  · rw [List.length_zipIdx, List.length_map, List.length_map]
  · rw [List.getElem_zipIdx, List.getElem_map, List.getElem_map, List.getElem_range',
      Nat.zero_add, Nat.one_mul, Nat.zero_add]

theorem zipIdx_chunks (bytes : Bytes) (length : Nat) :
    (chunks bytes length).zipIdx =
      (List.range' 0 (chunkCount length)).map fun index => (chunkAt bytes length index, index) := by
  rw [chunks, zipIdx_map_range]

theorem chunkCount_le {length index : Nat} : chunkCount length ≤ index ↔
    length ≤ index * CHUNK_BYTES := by
  rw [chunkCount, Nat.div_le_iff_le_mul_add_pred (by decide), CHUNK_BYTES]
  omega

/-- Where a chunk begins and ends. -/
theorem chunkAt_of_lt {bytes : Bytes} {index : Nat} (isIndex : index < chunkCount bytes.length) :
    index * CHUNK_BYTES ≤ bytes.length ∧ chunkAt bytes bytes.length index =
      (bytes.drop (index * CHUNK_BYTES)).take
        (min ((index + 1) * CHUNK_BYTES) bytes.length - index * CHUNK_BYTES) := by
  have under : ¬ bytes.length ≤ index * CHUNK_BYTES := by
    rw [← chunkCount_le]
    omega
  have next : (index + 1) * CHUNK_BYTES = index * CHUNK_BYTES + CHUNK_BYTES :=
    Nat.succ_mul index CHUNK_BYTES
  refine ⟨Nat.le_of_not_le under, ?_⟩
  rw [chunkAt]
  congr 1
  omega

theorem flatten_chunkAt (bytes : Bytes) : ∀ count index,
    index + count = chunkCount bytes.length →
      ((List.range' index count).map (chunkAt bytes bytes.length)).flatten =
        bytes.drop (index * CHUNK_BYTES)
  | 0, index, isCount => by
    have beyond : bytes.length ≤ index * CHUNK_BYTES :=
      chunkCount_le.mp (Nat.le_of_eq isCount.symm)
    rw [List.range'_zero, List.map_nil, List.flatten_nil, List.drop_eq_nil_of_le beyond]
  | count + 1, index, isCount => by
    rw [List.range'_succ, List.map_cons, List.flatten_cons,
      flatten_chunkAt bytes count (index + 1) (by omega), chunkAt, Nat.succ_mul,
      ← List.drop_drop, ← List.length_drop, ← List.take_eq_take_min, List.take_append_drop]

theorem flatten_chunks (bytes : Bytes) : (chunks bytes bytes.length).flatten = bytes := by
  rw [chunks, List.range_eq_range', flatten_chunkAt bytes _ 0 (Nat.zero_add _), Nat.zero_mul,
    List.drop_zero]

/-! ### Partway through the writes -/

/-- Where a write goes, and its bytes. -/
def PlannedWrite.segment (image : VerifiedImage) (write : PlannedWrite) : Nat × Bytes :=
  (write.range.start.toNat, write.data image)

def WritePlan.segments (plan : WritePlan) (image : VerifiedImage) : List (Nat × Bytes) :=
  plan.writes.map (PlannedWrite.segment image)

/-- The bytes of a drive that has taken `count` bytes of the writes: those of the writes that are
done, and of the next one as many bytes as are stored. -/
inductive Partway (exact : Prop) (start : Nat → UInt8) (writes : List (Nat × Bytes)) :
    Nat → (Nat → UInt8) → Prop
  | between {done rest : List (Nat × Bytes)} (split : writes = done ++ rest) :
      Partway exact start writes (total done) (putAll start done)
  | within {done rest : List (Nat × Bytes)} {offset : Nat} {data stored : Bytes}
      (split : writes = done ++ (offset, data) :: rest) (within : stored.length ≤ data.length)
      (same : exact → stored = data.take stored.length) :
      Partway exact start writes (total done + stored.length)
        (put (putAll start done) offset stored)

/-- A drive that stores what it accepts holds the first bytes of the writes. -/
theorem Partway.eq_takeBytes {exact : Prop} {start bytes : Nat → UInt8}
    {writes : List (Nat × Bytes)} {count : Nat}
    (partway : Partway exact start writes count bytes) (isExact : exact) :
    bytes = putAll start (takeBytes count writes) := by
  cases partway with
  | @between done rest split =>
    rw [split, takeBytes_append_total, putAll_append, putAll_takeBytes_zero]
  | within split inside same =>
    rw [split, putAll_takeBytes inside, ← same isExact]

/-- No byte outside of the writes has changed. -/
theorem Partway.outside {exact : Prop} {start bytes : Nat → UInt8} {writes : List (Nat × Bytes)}
    {count position : Nat} (partway : Partway exact start writes count bytes)
    (outside : ∀ write ∈ writes, position < write.1 ∨ write.1 + write.2.length ≤ position) :
    bytes position = start position := by
  cases partway with
  | @between done rest split =>
    subst split
    exact putAll_outside (fun write member => outside write (List.mem_append_left _ member)) _
  | @within done rest offset data stored split inside =>
    subst split
    have outsideNext := outside (offset, data)
      (List.mem_append_right _ List.mem_cons_self)
    dsimp only at outsideNext
    rw [put_outside (by omega)]
    exact putAll_outside (fun write member => outside write (List.mem_append_left _ member)) _

theorem Partway.of_zero {exact : Prop} {start bytes : Nat → UInt8} {writes : List (Nat × Bytes)}
    (partway : Partway exact start writes 0 bytes) : bytes = start := by
  generalize isCount : 0 = count at partway
  cases partway with
  | between => exact putAll_of_total isCount.symm
  | @within done rest offset data stored =>
    obtain rfl : stored = [] := List.length_eq_zero_iff.mp (by omega)
    rw [put_nil, putAll_of_total (by omega)]

/-- The reasons to stop agree with the number of bytes that were written. -/
def Stopped.Counts (count : Nat) : Stopped → Prop
  | .failure (.refused _) => count = 0
  | .failure (.incomplete confirmed _) => confirmed = count ∧ count ≠ 0
  | .unfinished => True

theorem failure_counts (written : Nat) (reason : String) :
    (failure written reason).Counts written := by
  unfold failure
  split
  · assumption
  · exact ⟨rfl, by assumption⟩

theorem refused_counts (reason : String) : (refused reason).Counts 0 := rfl

/-- A run of the writer: what it writes, with which approval, and the bytes that it found. -/
structure Run where
  exact : Prop
  hashing : Hashing
  image : VerifiedImage
  plan : WritePlan
  permit : Approval
  start : Nat → UInt8

namespace Run

def segments (run : Run) : List (Nat × Bytes) := run.plan.segments run.image

/-- What a drive of the run may answer. -/
def Answers (run : Run) : Behaviour WriterAction Drive := Drive.Answers run.exact

/-- The clock and the observation by which the approval was checked. -/
structure Approved (run : Run) (mutation : Nat × Option DeviceObservation) : Prop where
  unexpired : mutation.1 < run.permit.expires
  digest : run.permit.plan = run.hashing.digest run.plan
  seen : ∃ current, mutation.2 = some current ∧
    run.permit.identifier = current.displayIdentifier ∧
    run.plan.revalidate current run.image = .ok ()

/-- If bytes were written, the approval was checked; there are `count` of them. -/
structure Permitted (run : Run) (count : Nat) (drive : Drive) : Prop where
  fresh : count = 0 ↔ drive.mutation = none
  approved : ∀ mutation, drive.mutation = some mutation → run.Approved mutation

/-- A drive that has taken `count` bytes of the plan. -/
structure Held (run : Run) (count : Nat) (drive : Drive) : Prop where
  bytes : Partway run.exact run.start run.segments count drive.bytes
  permitted : run.Permitted count drive

/-- What holds of the drive after every call. -/
def Kept (run : Run) (_before after : Drive) : Prop := ∃ count, run.Held count after

/-- How a part of the writer ends. -/
def Ends (run : Run) (good : Result → Drive → Prop) : Except Stopped Result → Drive → Prop
  | .ok result, drive => good result drive
  | .error stopped, drive => ∃ count, run.Held count drive ∧ stopped.Counts count

/-- All writes so far are done. -/
structure Ready (run : Run) (done : List (Nat × Bytes)) (drive : Drive) : Prop where
  bytes : drive.bytes = putAll run.start done
  permitted : run.Permitted (total done) drive

/-- The writes so far are done, and the first bytes of the next one are stored. -/
structure At (run : Run) (done : List (Nat × Bytes)) (offset : Nat) (data : Bytes)
    (position : Nat) (drive : Drive) : Prop where
  bytes : ∃ stored, stored.length = position ∧ (run.exact → stored = data.take position) ∧
    drive.bytes = put (putAll run.start done) offset stored
  cursor : drive.cursor = offset + position
  permitted : run.Permitted (total done + position) drive

variable {run : Run} {done rest : List (Nat × Bytes)} {offset position count : Nat} {data : Bytes}
  {before after : Drive}

theorem Permitted.untouched (permitted : run.Permitted count before)
    (untouched : Untouched before after) : run.Permitted count after :=
  ⟨by rw [untouched.mutation]; exact permitted.fresh,
    by rw [untouched.mutation]; exact permitted.approved⟩

theorem Held.untouched (held : run.Held count before) (untouched : Untouched before after) :
    run.Held count after :=
  ⟨by rw [untouched.bytes]; exact held.bytes, held.permitted.untouched untouched⟩

theorem Ready.untouched (ready : run.Ready done before) (untouched : Untouched before after) :
    run.Ready done after :=
  ⟨untouched.bytes.trans ready.bytes, ready.permitted.untouched untouched⟩

theorem At.untouched (reached : run.At done offset data position before)
    (untouched : Untouched before after) (same : after.cursor = before.cursor) :
    run.At done offset data position after :=
  ⟨by rw [untouched.bytes]; exact reached.bytes, same.trans reached.cursor,
    reached.permitted.untouched untouched⟩

theorem Ready.held (ready : run.Ready done before) (split : run.segments = done ++ rest) :
    run.Held (total done) before :=
  ⟨by rw [ready.bytes]; exact .between split, ready.permitted⟩

theorem At.held (reached : run.At done offset data position before)
    (split : run.segments = done ++ (offset, data) :: rest) (inside : position ≤ data.length) :
    run.Held (total done + position) before := by
  refine ⟨?_, reached.permitted⟩
  obtain ⟨stored, rfl, same, bytes⟩ := reached.bytes
  rw [bytes]
  exact .within split inside same

/-- Bytes that the drive takes come behind those that it has. -/
theorem At.store {stored : Bytes} (reached : run.At done offset data position before)
    (notNil : stored ≠ [])
    (same : run.exact → stored = (data.drop position).take stored.length)
    (approved : total done + position = 0 → run.Approved (before.reading, before.seen)) :
    run.At done offset data (position + stored.length) (before.store stored) := by
  have length := List.length_pos_iff.mpr notNil
  obtain ⟨taken, rfl, sameTaken, bytes⟩ := reached.bytes
  have mutation : (before.store stored).mutation =
      before.mutation.or (some (before.reading, before.seen)) := if_neg notNil
  refine ⟨⟨taken ++ stored, List.length_append, fun isExact => ?_, ?_⟩, ?_, ?_, ?_⟩
  · rw [List.take_add, ← sameTaken isExact, ← same isExact]
  · show put before.bytes before.cursor stored = _
    rw [bytes, reached.cursor, put_append]
  · show before.cursor + stored.length = _
    rw [reached.cursor, Nat.add_assoc]
  · rw [mutation]
    cases before.mutation with
    | none => exact ⟨fun none => absurd none (by omega), fun none => nomatch none⟩
    | some _ => exact ⟨fun none => absurd none (by omega), fun none => nomatch none⟩
  · rw [mutation]
    intro first isFirst
    cases earlier : before.mutation with
    | some _ =>
      rw [earlier, Option.some_or] at isFirst
      exact reached.permitted.approved first (earlier.trans isFirst)
    | none =>
      rw [earlier, Option.none_or] at isFirst
      obtain rfl := Option.some.inj isFirst
      exact approved (reached.permitted.fresh.mpr earlier)

/-! ### Writing a chunk -/

/-- Going on from a quiet program in the middle of the writes. -/
theorem Held.safe_bind {First Result : Type} {program : Writer First} {next : First → Writer Result}
    {between : First → Drive → Prop} {good : Result → Drive → Prop} (held : run.Held count before)
    (quietly : Quietly run.exact program before between (Stopped.Counts count))
    (goesOn : ∀ result after, Untouched before after → after.cursor = before.cursor →
      between result after → (next result).safe run.Answers run.Kept (run.Ends good) after) :
    (program >>= next).safe run.Answers run.Kept (run.Ends good) before :=
  safe_quietly_bind quietly (fun _ _ untouched => ⟨count, held.untouched untouched⟩) goesOn
    fun _ _ untouched counts => ⟨count, held.untouched untouched, counts⟩

/-- Before the first byte the approval is still good for the device that was just observed. -/
theorem quietly_checkMutation {progress : Progress} :
    Quietly run.exact (checkMutation run.hashing run.image run.plan run.permit progress) before
      (fun _ after => progress.written = 0 → run.Approved (after.reading, after.seen))
      (Stopped.Counts progress.written) := by
  unfold checkMutation
  split
  · refine quietly_bind (quietly_checkDevice (failure_counts _)) ?_
    rintro current observed - - ⟨seen, -⟩
    refine quietly_bind quietly_now ?_
    rintro now after - - rfl
    refine quietly_checked (fun _ valid _ => ?_) (failure_counts _ _)
    unfold Approval.validateBeforeMutation at valid
    split at valid
    · cases valid
    · rename_i holds
      rw [not_or, not_or, not_le, not_not, not_not] at holds
      exact ⟨holds.1, holds.2.1, current, seen, holds.2.2, valid⟩
  · rename_i some'
    exact quietly_pure fun none => absurd none some'

/-- What is left of a chunk that ends at `upTo`. -/
def Leaves (run : Run) (done : List (Nat × Bytes)) (offset : Nat) (data : Bytes) (upTo : Nat)
    (left : Remaining) (drive : Drive) : Prop :=
  ∃ position ≤ upTo, run.At done offset data position drive ∧
    left.progress.written = total done + position ∧ left.offset = offset + position ∧
    left.bytes = (data.drop position).take (upTo - position)

/-- The chunk has been written. -/
def Chunked (run : Run) (done : List (Nat × Bytes)) (offset : Nat) (data : Bytes) (upTo : Nat)
    (progress : Progress) (drive : Drive) : Prop :=
  run.At done offset data upTo drive ∧ progress.written = total done + upTo

variable {upTo : Nat}

/-- What a device has taken of the rest of a chunk comes behind what it has. -/
theorem Leaves.advance {left : Remaining} {capacity : Nat} {stored : Bytes}
    (leaves : run.Leaves done offset data upTo left before) (notNil : stored ≠ [])
    (fits : stored.length ≤ left.bytes.length)
    (same : run.exact → stored = left.bytes.take stored.length)
    (approved : left.progress.written = 0 → run.Approved (before.reading, before.seen)) :
    run.Leaves done offset data upTo (left.advance stored.length capacity)
      (before.store stored) := by
  obtain ⟨position, within, reached, written, isOffset, bytes⟩ := leaves
  rw [bytes] at fits same
  have short : stored.length ≤ upTo - position := by
    rw [List.length_take] at fits
    omega
  rw [List.take_take, Nat.min_eq_left short] at same
  rw [written] at approved
  refine ⟨position + stored.length, by omega, reached.store notNil same approved, ?_, ?_, ?_⟩
  · show left.progress.written + stored.length = _
    rw [written, Nat.add_assoc]
  · show left.offset + stored.length = _
    rw [isOffset, Nat.add_assoc]
  · show left.bytes.drop stored.length = _
    rw [bytes, List.drop_take, List.drop_drop, Nat.sub_sub]

theorem untouched_store_nil (drive : Drive) : Untouched drive (drive.store []) :=
  ⟨put_nil _ _, by rw [Drive.store, if_pos rfl]⟩

section Chunk

variable (split : run.segments = done ++ (offset, data) :: rest) (inside : upTo ≤ data.length)

include split inside

theorem Leaves.held {left : Remaining} (leaves : run.Leaves done offset data upTo left before) :
    run.Held left.progress.written before := by
  obtain ⟨position, within, reached, written, -⟩ := leaves
  rw [written]
  exact reached.held split (within.trans inside)

theorem safe_writeRound {budget capacity : Nat} {left : Remaining}
    (leaves : run.Leaves done offset data upTo left before) :
    (writeRound run.hashing run.image run.plan run.permit budget capacity left).safe run.Answers
      run.Kept (run.Ends (Sum.elim (run.Leaves done offset data upTo)
        (run.Chunked done offset data upTo))) before := by
  have held := leaves.held split inside
  have counts := failure_counts left.progress.written
  unfold writeRound
  split
  · rename_i isEmpty
    obtain ⟨position, within, reached, written, -, bytes⟩ := leaves
    rw [List.isEmpty_iff, bytes, List.take_eq_nil_iff, List.drop_eq_nil_iff] at isEmpty
    obtain rfl : position = upTo := by omega
    exact ⟨reached, written⟩
  refine held.safe_bind (quietly_giveUpWhenOver (counts _)) fun _ first untouched same _ => ?_
  refine (held.untouched untouched).safe_bind quietly_checkMutation
    fun _ second untouchedSecond sameSecond approved => ?_
  have quiet := untouched.trans untouchedSecond
  have leaves : run.Leaves done offset data upTo left second := by
    obtain ⟨position, within, reached, rest⟩ := leaves
    exact ⟨position, within, reached.untouched quiet (sameSecond.trans same), rest⟩
  have held := held.untouched quiet
  refine safe_perform_bind fun answer after answers => ?_
  cases answer with
  | interrupted =>
    obtain rfl : after = second := answers
    exact ⟨⟨_, held⟩, leaves⟩
  | failed =>
    obtain rfl : after = second := answers
    exact ⟨⟨_, held⟩, _, held, counts _⟩
  | accepted taken =>
    obtain ⟨stored, rfl, fits, isExact, rfl⟩ := answers
    by_cases isNil : stored = []
    · subst isNil
      have held := held.untouched (untouched_store_nil second)
      exact ⟨⟨_, held⟩, _, held, counts _⟩
    · have leaves : run.Leaves done offset data upTo (left.advance stored.length capacity)
          (second.store stored) := leaves.advance isNil fits isExact approved
      refine ⟨⟨_, leaves.held split inside⟩, ?_⟩
      dsimp only
      rw [if_neg (mt List.length_eq_zero_iff.mp isNil), if_neg (Nat.not_lt_of_le fits)]
      exact leaves

theorem safe_writeChunk {rounds budget start position : Nat} {progress : Progress}
    (reached : run.At done offset data position before) (within : position ≤ upTo)
    (written : progress.written = total done + position) (isStart : start = offset + position) :
    (writeChunk run.hashing run.image run.plan rounds run.permit budget
      ((data.drop position).take (upTo - position)) start progress).safe run.Answers run.Kept
        (run.Ends (run.Chunked done offset data upTo)) before := by
  have held := reached.held split (within.trans inside)
  rw [← written] at held
  have counts := failure_counts progress.written
  refine held.safe_bind (quietly_giveUpWhenOver (counts _)) fun _ first quiet same _ => ?_
  refine (held.untouched quiet).safe_bind (quietly_checkDevice counts)
    fun current second quietSecond sameSecond _ => ?_
  refine ((held.untouched quiet).untouched quietSecond).safe_bind (quietly_stopIf (counts _)) ?_
  rintro - third quietThird sameThird -
  have leaves : run.Leaves done offset data upTo
      ⟨(data.drop position).take (upTo - position), start, progress⟩ third :=
    ⟨position, within, reached.untouched ((quiet.trans quietSecond).trans quietThird)
      (sameThird.trans (sameSecond.trans same)), written, isStart, rfl⟩
  refine Program.safe_bind _ _ (safe_iterate_any ?_ ?_ rounds _ _ leaves)
  · intro left world leaves
    refine safe_mono ?_ _ _ (safe_writeRound split inside leaves)
    rintro (stopped | next | progress) after ended
    · exact ended
    · exact ended
    · obtain ⟨reached, written⟩ := ended
      have held := reached.held split inside
      rw [← written] at held
      exact held.safe_bind (quietly_checkDevice (failure_counts _))
        fun _ last quiet same _ => ⟨reached.untouched quiet same, written⟩
  · intro left world leaves
    exact ⟨_, leaves.held split inside, trivial⟩

end Chunk

/-! ### Writing a range -/

section Range

variable (split : run.segments = done ++ (offset, data) :: rest)

include split

theorem safe_writeChunks {rounds budget count : Nat} : ∀ {index : Nat} {progress : Progress}
    {before : Drive}, index + count = chunkCount data.length →
    run.Chunked done offset data (min (index * CHUNK_BYTES) data.length) progress before →
      (writeChunks run.hashing run.image run.plan rounds run.permit budget offset
        ((List.range' index count).map fun index => (chunkAt data data.length index, index))
        progress).safe run.Answers run.Kept (run.Ends (run.Chunked done offset data data.length))
        before := by
  induction count with
  | zero =>
    intro index progress before isCount chunked
    have beyond : data.length ≤ index * CHUNK_BYTES := chunkCount_le.mp (by omega)
    rw [Nat.min_eq_right beyond] at chunked
    rw [List.range'_zero, List.map_nil]
    exact chunked
  | succ count inductionHypothesis =>
    rintro index progress before isCount ⟨reached, written⟩
    obtain ⟨under, chunk⟩ := @chunkAt_of_lt data index (by omega)
    have next : (index + 1) * CHUNK_BYTES = index * CHUNK_BYTES + CHUNK_BYTES :=
      Nat.succ_mul index CHUNK_BYTES
    rw [Nat.min_eq_left under] at reached written
    rw [List.range'_succ, List.map_cons, chunk]
    refine Program.safe_bind _ _ (safe_mono ?_ _ _ (safe_writeChunk split
      (Nat.min_le_right _ _) reached (by omega) written rfl))
    rintro (stopped | progress) after ended
    · exact ended
    · exact inductionHypothesis (by omega) ended

end Range

/-- How the chunks that are read back compare with those on the drive. -/
def ReadBack (before : Drive) (written : Nat) (chunks : List Bytes) :
    Except Stopped Unit → Drive → Prop
  | .ok (), after => Untouched before after ∧
      window before.bytes before.cursor chunks.flatten.length = chunks.flatten
  | .error stopped, after => Untouched before after ∧ stopped.Counts written

theorem safe_readBack {budget written : Nat} {chunks : List Bytes} : ∀ {before : Drive},
    (readBack budget written chunks).safe run.Answers (fun _ after => Untouched before after)
      (ReadBack before written chunks) before := by
  have counts := failure_counts written
  induction chunks with
  | nil => exact fun {before} => ⟨.refl before, rfl⟩
  | cons expected rest inductionHypothesis =>
    intro before
    have quietly : Quietly run.exact (timeOver budget) before (fun _ _ => True)
      (Stopped.Counts written) := quietly_timeOver
    refine safe_quietly_bind quietly (fun _ _ untouched => untouched) ?_
      fun _ _ untouched holds => ⟨untouched, holds⟩
    intro late first quiet same _
    refine safe_quietly_bind (quietly_stopIf (counts _)) (fun _ _ untouched =>
      quiet.trans untouched) ?_ fun _ _ untouched holds => ⟨quiet.trans untouched, holds⟩
    rintro - second - - ⟨rfl, -⟩
    refine safe_orStop_bind ?_ ?_
    · rintro read third ⟨cursor, rfl, isFound⟩
      obtain ⟨isRead, rfl⟩ := isFound read rfl
      have quiet : Untouched before
          { second with cursor := second.cursor + expected.length } :=
        ⟨quiet.bytes, quiet.mutation⟩
      refine ⟨quiet, ?_⟩
      refine safe_quietly_bind (quietly_stopIf (counts _)) (fun _ _ untouched =>
        quiet.trans untouched) ?_ fun _ _ untouched holds => ⟨quiet.trans untouched, holds⟩
      rintro - fourth - - ⟨rfl, equal⟩
      have isExpected : read = expected := by simpa using equal
      refine safe_mono ?_ _ _ (safe_mono_guarantee (fun _ _ kept => quiet.trans kept) _ _
        inductionHypothesis)
      rintro (stopped | _) after ended
      · exact ⟨quiet.trans ended.1, ended.2⟩
      · refine ⟨quiet.trans ended.1, ?_⟩
        have found := ended.2
        rw [quiet.bytes] at found
        rw [isExpected, quiet.bytes] at isRead
        rw [List.flatten_cons, List.length_append, window_add, ← same, ← isRead]
        exact congrArg (expected ++ ·) found
    · rintro third ⟨cursor, rfl, -⟩
      exact ⟨⟨quiet.bytes, quiet.mutation⟩, ⟨quiet.bytes, quiet.mutation⟩, counts _⟩

/-- A write that has been read back is done. -/
theorem At.ready (reached : run.At done offset data data.length before)
    (found : window before.bytes offset data.length = data) :
    run.Ready (done ++ [(offset, data)]) before := by
  obtain ⟨stored, same, -, bytes⟩ := reached.bytes
  rw [bytes] at found
  obtain rfl := put_of_window same found
  refine ⟨?_, ?_⟩
  · rw [bytes, putAll_append]
    rfl
  · rw [total_append]
    exact reached.permitted

/-- A write begins with none of its bytes. -/
theorem Ready.at_start (ready : run.Ready done before) :
    run.At done offset data 0 { before with cursor := offset } :=
  ⟨⟨[], rfl, fun _ => rfl, by rw [put_nil]; exact ready.bytes⟩, rfl,
    ready.permitted.untouched ⟨rfl, rfl⟩⟩

theorem expected_of_hasSource {image : VerifiedImage} {write : PlannedWrite}
    (hasSource : write.hasSource image = true) :
    write.expected image = .ok (write.data image) ∧
      (write.data image).length = write.range.length.toNat := by
  unfold PlannedWrite.hasSource at hasSource
  unfold PlannedWrite.expected PlannedWrite.data
  cases source : write.source with
  | image from' =>
    rw [source] at hasSource
    simp only [Bool.and_eq_true, decide_eq_true_eq] at hasSource
    dsimp only
    rw [if_neg (by omega), List.length_take, List.length_drop]
    exact ⟨rfl, by omega⟩
  | bytes bytes =>
    rw [source] at hasSource
    exact ⟨rfl, of_decide_eq_true hasSource⟩
  | zeroes => exact ⟨rfl, List.length_replicate⟩

theorem quietly_revalidateFirst {written : Nat} :
    Quietly run.exact (revalidateFirst written) before (fun _ after => after = before)
      (Stopped.Counts written) := by
  unfold revalidateFirst
  split
  · rename_i none
    exact quietly_revalidateSource none
  · exact quietly_pure rfl

theorem safe_writeRange {rounds budget : Nat} {write : PlannedWrite} {progress : Progress}
    (split : run.segments = done ++ write.segment run.image :: rest)
    (hasSource : write.hasSource run.image = true) (ready : run.Ready done before)
    (written : progress.written = total done) :
    (writeRange run.hashing run.image run.plan rounds run.permit budget write progress).safe
      run.Answers run.Kept (run.Ends fun progress after =>
        run.Ready (done ++ [write.segment run.image]) after ∧
          progress.written = total (done ++ [write.segment run.image])) before := by
  have held := ready.held split
  rw [← written] at held
  have counts := failure_counts progress.written
  refine held.safe_bind quietly_revalidateFirst ?_
  rintro - first quiet - -
  obtain ⟨isExpected, length⟩ := expected_of_hasSource hasSource
  have ready := ready.untouched quiet
  have held := held.untouched quiet
  dsimp only
  rw [isExpected]
  dsimp only
  rw [← length, zipIdx_chunks]
  refine safe_orStop_bind ?_ ?_
  · rintro sought second ⟨cursor, rfl, found⟩
    obtain rfl := found rfl
    refine ⟨⟨_, held.untouched ⟨rfl, rfl⟩⟩, ?_⟩
    have chunked : run.Chunked done write.range.start.toNat (write.data run.image)
        (min (0 * CHUNK_BYTES) (write.data run.image).length) progress
        { first with cursor := write.range.start.toNat } := by
      rw [Nat.zero_mul, Nat.zero_min]
      exact ⟨ready.at_start, written⟩
    refine Program.safe_bind _ _ (safe_mono ?_ _ _ (safe_writeChunks split
      (Nat.zero_add _) chunked))
    rintro (stopped | progress) third ended
    · exact ended
    obtain ⟨reached, written⟩ := ended
    have held := reached.held split (Nat.le_refl _)
    rw [← written] at held
    have counts := failure_counts progress.written
    have flushed : Quietly run.exact (orStop .flushDurable (failure progress.written
        "flush failed")) third (fun _ after => after = third) (Stopped.Counts progress.written) :=
      quietly_orStop (fun _ after same => by
        obtain rfl : after = third := same
        exact ⟨.refl after, fun _ _ => ⟨rfl, rfl⟩⟩) (counts _)
    refine held.safe_bind flushed ?_
    rintro - fourth quiet - -
    have held := held.untouched quiet
    refine safe_orStop_bind ?_ ?_
    · rintro sought fifth ⟨cursor, rfl, found⟩
      obtain rfl := found rfl
      have held : run.Held progress.written { fourth with cursor := write.range.start.toNat } :=
        held.untouched ⟨rfl, rfl⟩
      refine ⟨⟨_, held⟩, ?_⟩
      refine Program.safe_bind _ _ (safe_mono ?_ _ _ (safe_mono_guarantee
        (fun _ _ untouched => ⟨_, held.untouched untouched⟩) _ _ safe_readBack))
      rintro (stopped | _) last ended
      · exact ⟨_, held.untouched ended.1, ended.2⟩
      · have found := ended.2
        rw [flatten_chunks] at found
        have isFound : window third.bytes write.range.start.toNat
            (write.data run.image).length = write.data run.image := by
          rw [← quiet.bytes]
          exact found
        have untouched : Untouched third last :=
          ⟨ended.1.bytes.trans quiet.bytes, ended.1.mutation.trans quiet.mutation⟩
        refine ⟨(reached.ready isFound).untouched untouched, ?_⟩
        rw [written, total_append]
        rfl
    · rintro fifth ⟨cursor, rfl, -⟩
      exact ⟨⟨_, held.untouched ⟨rfl, rfl⟩⟩, _, held.untouched ⟨rfl, rfl⟩, counts _⟩
  · rintro second ⟨cursor, rfl, -⟩
    exact ⟨⟨_, held.untouched ⟨rfl, rfl⟩⟩, _, held.untouched ⟨rfl, rfl⟩, counts _⟩

theorem safe_writeRanges {rounds budget : Nat} : ∀ {writes : List PlannedWrite}
    {done : List (Nat × Bytes)} {progress : Progress} {before : Drive},
    run.segments = done ++ writes.map (PlannedWrite.segment run.image) →
    (∀ write ∈ writes, write.hasSource run.image = true) → run.Ready done before →
    progress.written = total done →
    (writeRanges run.hashing run.image run.plan rounds run.permit budget writes progress).safe
      run.Answers run.Kept (run.Ends fun progress after =>
        run.Ready run.segments after ∧ progress.written = total run.segments) before := by
  intro writes
  induction writes with
  | nil =>
    intro done progress before split _ ready written
    rw [List.map_nil, List.append_nil] at split
    rw [split]
    exact ⟨ready, written⟩
  | cons write writes inductionHypothesis =>
    intro done progress before split hasSource ready written
    rw [List.map_cons] at split
    refine Program.safe_bind _ _ (safe_mono ?_ _ _ (safe_writeRange split
      (hasSource write List.mem_cons_self) ready written))
    rintro (stopped | progress) after ended
    · exact ended
    · refine inductionHypothesis ?_ (fun other member => hasSource other (.tail _ member))
        ended.1 ended.2
      rw [split, List.append_assoc]
      rfl

/-! ### The whole run -/

/-- The drive before the run. -/
structure Begins (run : Run) (before : Drive) : Prop where
  bytes : before.bytes = run.start
  mutation : before.mutation = none

theorem Begins.ready (begins : run.Begins before) : run.Ready [] before :=
  ⟨begins.bytes, ⟨fun _ => begins.mutation, fun _ => rfl⟩, fun mutation isSome => by
    rw [begins.mutation] at isSome
    exact absurd isSome.symm (Option.some_ne_none _)⟩

theorem quietly_expectTable {current : DeviceObservation} :
    Quietly run.exact (expectTable run.hashing run.plan current) before (fun _ _ => True)
      (Stopped.Counts 0) := by
  unfold expectTable
  split
  · refine quietly_bind (quietly_readTableWindows (refused_counts _)) ?_
    rintro table first - - -
    have passes : Quietly run.exact (checked (run.hashing.tableFingerprint table.head table.tail)
        (refused "partition table read")) first (fun _ _ => True) (Stopped.Counts 0) :=
      quietly_checked (fun _ _ => trivial) (refused_counts _)
    refine quietly_bind passes ?_
    rintro observed second - - -
    exact quietly_bind (quietly_stopIf (refused_counts _)) fun _ _ _ _ _ => quietly_pure trivial
  · exact quietly_pure trivial

theorem safe_writeApproved {rounds : Nat} (ready : run.Ready [] before) :
    (writeApproved run.hashing run.image run.plan rounds run.permit).safe run.Answers run.Kept
      (run.Ends fun written after => run.Ready run.segments after ∧ written = total run.segments)
      before := by
  have held : run.Held 0 before := ready.held rfl
  have counts := refused_counts
  refine held.safe_bind quietly_cancelled fun _ first quiet1 _ _ => ?_
  have quiet := quiet1
  refine (held.untouched quiet).safe_bind (quietly_stopIf (counts _)) fun _ second quiet2 _ _ => ?_
  have quiet := quiet.trans quiet2
  refine (held.untouched quiet).safe_bind (quietly_revalidateSource (counts _))
    fun _ third quiet3 _ _ => ?_
  have quiet := quiet.trans quiet3
  have locked : Quietly run.exact (orStop .lockExclusive (refused "exclusive access")) third
      (fun _ _ => True) (Stopped.Counts 0) :=
    quietly_orStop (fun _ after same => by
      obtain rfl : after = third := same
      exact ⟨.refl after, fun _ _ => ⟨rfl, trivial⟩⟩) (counts _)
  refine (held.untouched quiet).safe_bind locked fun _ fourth quiet4 _ _ => ?_
  have quiet := quiet.trans quiet4
  refine (held.untouched quiet).safe_bind (quietly_observe (counts _))
    fun current fifth quiet5 _ _ => ?_
  have quiet := quiet.trans quiet5
  have revalidated : Quietly run.exact (checked (run.plan.revalidate current run.image)
      (refused "device changed")) fifth (fun _ _ => run.plan.revalidate current run.image = .ok ())
      (Stopped.Counts 0) := quietly_checked (fun _ valid => valid) (counts _)
  refine (held.untouched quiet).safe_bind revalidated fun _ sixth quiet6 _ valid => ?_
  have quiet := quiet.trans quiet6
  refine (held.untouched quiet).safe_bind quietly_expectTable fun table seventh quiet7 _ _ => ?_
  have quiet := quiet.trans quiet7
  refine (held.untouched quiet).safe_bind quietly_cancelled fun _ eighth quiet8 _ _ => ?_
  have quiet := quiet.trans quiet8
  refine (held.untouched quiet).safe_bind (quietly_stopIf (counts _)) fun _ ninth quiet9 _ _ => ?_
  have quiet := quiet.trans quiet9
  refine (held.untouched quiet).safe_bind quietly_now fun budget tenth quiet10 _ _ => ?_
  have ready := ready.untouched (quiet.trans quiet10)
  refine Program.safe_bind _ _ (safe_mono ?_ _ _ (safe_writeRanges rfl
    (revalidate_eq_ok.mp valid).2.2.2.2 ready rfl))
  rintro (stopped | progress) last ended
  · exact ended
  obtain ⟨ready, written⟩ := ended
  have held := ready.held (List.append_nil _).symm
  rw [← written] at held
  refine held.safe_bind (quietly_revalidateSource (failure_counts _ _)) fun _ after quiet _ _ => ?_
  refine (held.untouched quiet).safe_bind (quietly_checkDevice (failure_counts _))
    fun _ after quietAfter _ _ => ⟨ready.untouched (quiet.trans quietAfter), written⟩

theorem safe_writeImage {rounds : Nat} {book : ConfirmationBook} {ticket : Fingerprint}
    (permit : ∀ approval, book.approvals ticket = some approval → run.permit = approval)
    (begins : run.Begins before) :
    (writeImage run.hashing run.image run.plan rounds book ticket).safe run.Answers run.Kept
      (run.Ends fun written after => run.Ready run.segments after ∧ written = total run.segments)
      before := by
  have held : run.Held 0 before := begins.ready.held rfl
  refine held.safe_bind quietly_now fun now after quiet _ _ => ?_
  have refuses : (.fail (refused "confirmation") : Writer Nat).safe run.Answers run.Kept
      (run.Ends fun written after => run.Ready run.segments after ∧ written = total run.segments)
      after := ⟨0, held.untouched quiet, refused_counts _⟩
  unfold ConfirmationBook.reserve
  cases found : book.approvals ticket with
  | none => exact refuses
  | some approval =>
    obtain rfl := permit approval found
    dsimp only
    split_ifs
    · exact refuses
    · exact safe_writeApproved (begins.ready.untouched quiet)

end Run

/-! ### Runs -/

/-- A drive as a run of the writer finds it. -/
def Drive.found (bytes : Nat → UInt8) (cursor : Nat) : Drive where
  bytes := bytes
  cursor := cursor
  reading := 0
  seen := none
  mutation := none

/-- What a run has written agrees with its outcome, if it has come to one. -/
def Agrees (total count : Nat) : Option (Except Stopped Nat) → Prop
  | none => True
  | some (.ok written) => written = total ∧ count = total
  | some (.error stopped) => stopped.Counts count

section Reaches

variable {hashing : Hashing} {image : VerifiedImage} {plan : WritePlan} {rounds cursor : Nat}
  {book : ConfirmationBook} {ticket : Fingerprint} {bytes : Nat → UInt8} {after : Drive}
  {outcome : Option (Except Stopped Nat)}

/-- Wherever a run is cut off or ends, it has written some part of the plan, under an approval,
and if it succeeds all of it. -/
theorem writeImage_reaches (reaches : (writeImage hashing image plan rounds book ticket).Reaches
      (Drive.Answers exact) (.found bytes cursor) outcome after) :
    ∃ count, Partway exact bytes (plan.segments image) count after.bytes ∧
      Agrees (total (plan.segments image)) count outcome ∧
      (∀ written, outcome = some (.ok written) →
        after.bytes = putAll bytes (plan.segments image)) ∧
      (count = 0 ↔ after.mutation = none) ∧
      ∀ mutation, after.mutation = some mutation →
        ∃ approval, book.approvals ticket = some approval ∧
          Run.Approved ⟨exact, hashing, image, plan, approval, bytes⟩ mutation := by
  -- Without an approval the run stops, so any other may take its place; this one has expired.
  let permit := (book.approvals ticket).getD ⟨hashing.digest plan, "", 0⟩
  let run : Run := ⟨exact, hashing, image, plan, permit, bytes⟩
  have begins : run.Begins (.found bytes cursor) := ⟨rfl, rfl⟩
  have isPermit : ∀ approval, book.approvals ticket = some approval → run.permit = approval :=
    fun approval found => by
      show (book.approvals ticket).getD _ = approval
      rw [found, Option.getD_some]
  have approved (mutation : Nat × Option DeviceObservation) (holds : run.Approved mutation) :
      ∃ approval, book.approvals ticket = some approval ∧
        Run.Approved ⟨exact, hashing, image, plan, approval, bytes⟩ mutation := by
    cases found : book.approvals ticket with
    | some approval =>
      refine ⟨approval, rfl, ?_⟩
      rw [← isPermit approval found]
      exact holds
    | none =>
      have expires : run.permit.expires = 0 := by
        show ((book.approvals ticket).getD _).expires = 0
        rw [found, Option.getD_none]
      exact absurd (expires ▸ holds.unexpired) (Nat.not_lt_zero _)
  obtain ⟨kept, ends⟩ := reaches.safe (run.safe_writeImage isPermit begins)
  have held : ∃ count, run.Held count after := by
    rcases Relation.ReflTransGen.cases_tail kept with same | ⟨_, _, held⟩
    · rw [same]
      exact ⟨0, begins.ready.held rfl⟩
    · exact held
  rcases outcome with _ | stopped | written
  · obtain ⟨count, held⟩ := held
    exact ⟨count, held.bytes, trivial, fun _ ended => (by cases ended), held.permitted.fresh,
      fun mutation is => approved mutation (held.permitted.approved mutation is)⟩
  · obtain ⟨count, held, counts⟩ := ends _ rfl
    exact ⟨count, held.bytes, counts, fun _ ended => (by cases ended), held.permitted.fresh,
      fun mutation is => approved mutation (held.permitted.approved mutation is)⟩
  · obtain ⟨ready, isTotal⟩ := ends _ rfl
    have held := ready.held (List.append_nil _).symm
    exact ⟨_, held.bytes, ⟨isTotal, rfl⟩, fun _ _ => ready.bytes, held.permitted.fresh,
      fun mutation is => approved mutation (held.permitted.approved mutation is)⟩

/-- No byte outside of the planned ranges ever changes. -/
theorem writeImage_outside (reaches : (writeImage hashing image plan rounds book ticket).Reaches
      (Drive.Answers exact) (.found bytes cursor) outcome after) {position : Nat}
    (outside : ∀ write ∈ plan.writes, ¬ write.range.Covers position) :
    after.bytes position = bytes position := by
  obtain ⟨count, partway, -, -, fresh, approved⟩ := writeImage_reaches reaches
  cases isMutation : after.mutation with
  | none =>
    obtain rfl := fresh.mpr isMutation
    rw [partway.of_zero]
  | some mutation =>
    -- The plan was checked, so that the source of every write is as long as its range.
    obtain ⟨_, -, -, -, current, -, -, valid⟩ := approved mutation isMutation
    refine partway.outside fun segment member => ?_
    obtain ⟨write, isWrite, rfl⟩ := List.mem_map.mp member
    have length := (Run.expected_of_hasSource ((revalidate_eq_ok.mp valid).2.2.2.2 write isWrite)).2
    have notCovered := outside write isWrite
    simp only [ByteRange.Covers, ByteRange.stop] at notCovered
    simp only [PlannedWrite.segment, length]
    omega

end Reaches

/-! ### A sample -/

/-- A drive that does what it is asked to; its clock stands still. -/
def Drive.obey (device : DeviceObservation) :
    (Answer : Type) → WriterAction Answer → Drive → Answer × Drive
  | _, .now, drive => (drive.reading, drive)
  | _, .cancelled, drive => (false, drive)
  | _, .revalidateSource, drive => (some (), drive)
  | _, .lockExclusive, drive => (some (), drive)
  | _, .flushDurable, drive => (some (), drive)
  | _, .observe, drive => (some device, { drive with seen := some device })
  | _, .seek position, drive => (some (), { drive with cursor := position })
  | _, .write data, drive => (.accepted data.length, drive.store data)
  | _, .readExact count, drive => (some (window drive.bytes drive.cursor count),
      { drive with cursor := drive.cursor + count })
  | _, .readAt offset count, drive => (some (window drive.bytes offset count), drive)

theorem Drive.answers_obey (exact : Prop) (device : DeviceObservation) (Answer : Type)
    (action : WriterAction Answer) (drive : Drive) :
    Drive.Answers exact Answer action drive (Drive.obey device Answer action drive).1
      (Drive.obey device Answer action drive).2 := by
  cases action with
  | write data => exact ⟨data, rfl, Nat.le_refl _, fun _ => List.take_length.symm, rfl⟩
  | seek position => exact ⟨position, rfl, fun _ => rfl⟩
  | readExact count => exact ⟨_, rfl, fun _ isRead => ⟨(Option.some.inj isRead).symm, rfl⟩⟩
  | readAt offset count => exact ⟨_, rfl, fun _ isRead => ⟨(Option.some.inj isRead).symm, rfl⟩⟩
  | _ => rfl

def sampleDigest : Fingerprint := Vector.replicate 32 0

def sampleDevice : DeviceObservation where
  osIdentity := "disk4"
  connectionIdentity := "usb1"
  displayIdentifier := "Stick"
  serial := none
  model := none
  capacityBytes := 512
  sectorBytes := 512
  tableFingerprint := sampleDigest
  ancestryFingerprint := sampleDigest
  mountFingerprint := sampleDigest
  externalUsb := true
  internal := false
  systemBacking := false
  ancestryComplete := true
  writable := true

def sampleRelease : ReleaseSelection where
  releaseId := 1
  publishedAt := 1
  tag := "v1"
  image := ⟨1, "image", 2, "1"⟩
  sums := ⟨2, "sums", 2, "1"⟩
  signature := ⟨3, "signature", 2, "1"⟩

def sampleImage : VerifiedImage := ⟨[7, 8, 9], sampleDigest, sampleDigest, sampleRelease⟩

/-- Two bytes of the image, and four behind them. -/
def samplePlan : WritePlan where
  operation := .createLayout
  device := sampleDevice
  sourceDigest := sampleDigest
  compressedDigest := sampleDigest
  release := sampleRelease
  ranges := [⟨0, 512⟩]
  writes := [⟨⟨0, 2⟩, .image 1⟩, ⟨⟨2, 4⟩, .bytes [1, 2, 3, 4]⟩]
  remainingBytes := 0
  phaseAware := false
  exchange := none
  identity := none

def sampleHashing : Hashing := ⟨fun _ => sampleDigest, fun _ => []⟩

def sampleBook : ConfirmationBook :=
  (ConfirmationBook.empty.issue sampleHashing samplePlan "Stick" 0 1 (some sampleDigest)).2

def sampleWriter : Writer Nat :=
  writeImage sampleHashing sampleImage samplePlan 5 sampleBook sampleDigest

def sampleRun : Except Stopped Nat × Drive :=
  sampleWriter.run (Drive.obey sampleDevice) (.found (fun _ => 0) 0)

theorem sampleRun_ok : sampleRun.1 = .ok 6 := by decide +kernel

/-- The sample is a run on either kind of drive. -/
theorem sampleWriter_reaches (exact : Prop) : sampleWriter.Reaches (Drive.Answers exact)
    (.found (fun _ => 0) 0) (some (.ok 6)) sampleRun.2 := by
  rw [← sampleRun_ok]
  exact reaches_run (Drive.answers_obey exact sampleDevice) sampleWriter _

section Reaches

variable {hashing : Hashing} {image : VerifiedImage} {plan : WritePlan} {rounds cursor : Nat}
  {book : ConfirmationBook} {ticket : Fingerprint} {bytes : Nat → UInt8} {after : Drive}
  {outcome : Option (Except Stopped Nat)}

/-- On a drive that stores what it accepts, at every moment the bytes are those that the run has
found with the first bytes of the plan put over them, as many as the outcome says: none if the run
was refused, as many as are confirmed if it stays incomplete, and all if it succeeds. -/
theorem writeImage_exact (reaches : (writeImage hashing image plan rounds book ticket).Reaches
      (Drive.Answers True) (.found bytes cursor) outcome after) :
    ∃ count, after.bytes = putAll bytes (takeBytes count (plan.segments image)) ∧
      Agrees (total (plan.segments image)) count outcome := by
  obtain ⟨count, partway, agrees, -⟩ := writeImage_reaches reaches
  exact ⟨count, partway.eq_takeBytes trivial, agrees⟩

/-- The sample run has written all six bytes. -/
theorem writeImage_exact_sample :
    ∃ count, sampleRun.2.bytes =
        putAll (fun _ => 0) (takeBytes count (samplePlan.segments sampleImage)) ∧
      Agrees 6 count (some (.ok 6)) :=
  writeImage_exact (sampleWriter_reaches True)

/-- Also on a drive that stores something else: no byte outside of the planned writes ever
changes, a refused run has changed nothing, and a successful one has put the whole plan on the
drive, since all of it was read back. -/
theorem writeImage_readBack (reaches : (writeImage hashing image plan rounds book ticket).Reaches
      (Drive.Answers False) (.found bytes cursor) outcome after) :
    (∀ position, (∀ write ∈ plan.segments image,
        position < write.1 ∨ write.1 + write.2.length ≤ position) →
      after.bytes position = bytes position) ∧
    (∀ reason, outcome = some (.error (refused reason)) → after.bytes = bytes) ∧
    ∀ written, outcome = some (.ok written) →
      after.bytes = putAll bytes (plan.segments image) ∧
        written = total (plan.segments image) := by
  obtain ⟨count, partway, agrees, whole, -⟩ := writeImage_reaches reaches
  refine ⟨fun position outside => partway.outside outside, ?_, ?_⟩
  · rintro reason rfl
    obtain rfl : count = 0 := agrees
    exact partway.of_zero
  · rintro written rfl
    exact ⟨whole written rfl, agrees.1⟩

theorem writeImage_readBack_sample :
    sampleRun.2.bytes = putAll (fun _ => 0) [(0, [8, 9]), (2, [1, 2, 3, 4])] :=
  ((writeImage_readBack (sampleWriter_reaches False)).2.2 6 rfl).1

end Reaches

end AiSwitcher.Device
