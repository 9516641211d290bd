/-
This file embeds `receive_message` of the privileged helper on Linux
(`apps/host/crates/helper/src/protocol.rs`): the control data that came with a message is walked
record by record, each with a length of its own, and the descriptors in it become files that
are closed when they are dropped. A read outside the control storage and a walk that does not end
both give nothing at all.

A machine word has eight bytes, the lowest first.
-/

import AiSwitcher.Host.Helper

namespace AiSwitcher.HelperProtocol

open Utf8 (Bytes)

/-! ### The control storage -/

/-- The number in some bytes, the lowest first. -/
def unsignedOf (bytes : Bytes) : Nat := bytes.foldr (fun byte value => byte.toNat + 256 * value) 0

/-- The same as an `i32`. -/
def signedOf (bytes : Bytes) : Int :=
  if unsignedOf bytes < 2 ^ 31 then unsignedOf bytes else (unsignedOf bytes : Int) - 2 ^ 32

/-- A read at an offset; one that is not inside the storage has no value. -/
def readAt (control : Bytes) (offset size : Nat) : Option Bytes :=
  if offset + size ≤ control.length then some ((control.drop offset).take size) else none

structure ControlHeader where
  length : Nat
  level : Int
  kind : Int

/-- `size_of::<ControlHeader>()` -/
def headerLength : Nat := 16

def alignment : Nat := 8

/-- `size_of::<i32>()` -/
def descriptorSize : Nat := 4

/-- `size_of::<UCred>()` -/
def credentialsSize : Nat := 12

def headerOf (bytes : Bytes) : ControlHeader where
  length := unsignedOf (bytes.take 8)
  level := signedOf ((bytes.drop 8).take 4)
  kind := signedOf ((bytes.drop 12).take 4)

structure Peer where
  pid : Nat
  uid : Nat
  gid : Nat
  deriving DecidableEq

def peerOf (bytes : Bytes) : Peer where
  pid := unsignedOf (bytes.take 4)
  uid := unsignedOf ((bytes.drop 4).take 4)
  gid := unsignedOf ((bytes.drop 8).take 4)

def SOL_SOCKET : Int := 1

def SCM_RIGHTS : Int := 1

def SCM_CREDENTIALS : Int := 2

def MSG_CTRUNC : BitVec 32 := 0x8

def MSG_TRUNC : BitVec 32 := 0x20

/-! ### The walk -/

/-- What the walk has found so far. -/
structure Walk where
  files : List Int
  credentials : Option Peer
  rightsRecords : Nat
  rightsShapeValid : Bool

def Walk.start : Walk := ⟨[], none, 0, true⟩

def Walk.refuse (walk : Walk) : Walk := { walk with rightsShapeValid := false }

/-- One descriptor of a record: it is a file from here on, or there is none. -/
def Walk.takeDescriptor (walk : Walk) (descriptor : Int) : Walk :=
  if descriptor < 0 then walk.refuse else { walk with files := walk.files ++ [descriptor] }

/-- The loop over the descriptors of a record. -/
def takeDescriptors (control : Bytes) (start : Nat) : Nat → Walk → Option Walk
  | 0, walk => some walk
  | count + 1, walk => do
      let bytes ← readAt control start descriptorSize
      takeDescriptors control (start + descriptorSize) count (walk.takeDescriptor (signedOf bytes))

/-- The kind of a record: credentials, anything refused, or descriptors. -/
def classify (control : Bytes) (offset available : Nat) (header : ControlHeader) (walk : Walk) :
    Option Walk :=
  if header.level = SOL_SOCKET ∧ header.kind = SCM_CREDENTIALS ∧
      header.length = headerLength + credentialsSize ∧ header.length ≤ available ∧
      walk.credentials = none then do
    let bytes ← readAt control (offset + headerLength) credentialsSize
    return { walk with credentials := some (peerOf bytes) }
  else if header.level ≠ SOL_SOCKET ∨ header.kind ≠ SCM_RIGHTS then return walk.refuse
  else return walk

/-- The descriptors of a record that carries some. -/
def takeRights (control : Bytes) (expectedFiles offset available : Nat) (header : ControlHeader)
    (walk : Walk) : Option Walk :=
  if header.level = 1 ∧ header.kind = 1 then
    let payloadLength := min header.length available - headerLength
    let walk := { walk with rightsRecords := walk.rightsRecords + 1 }
    let walk := if header.length > available ∨ payloadLength % descriptorSize ≠ 0 ∨
      header.length ≠ headerLength + expectedFiles * descriptorSize then walk.refuse else walk
    takeDescriptors control (offset + headerLength) (payloadLength / descriptorSize) walk
  else some walk

/-- Where the next record begins, if the walk goes on. -/
def advance (offset available : Nat) (header : ControlHeader) (walk : Walk) : Walk × Option Nat :=
  if header.length > available then (walk.refuse, none)
  else if 2 ^ 64 ≤ header.length + (alignment - 1) then (walk.refuse, none)
  else
    let alignedLength := (header.length + (alignment - 1)) / alignment * alignment
    if alignedLength = 0 then (walk.refuse, none)
    else if alignedLength > available then
      (if header.length ≠ available then walk.refuse else walk, none)
    else (walk, some (offset + alignedLength))

/-- The body of the loop. -/
def parseRecord (control : Bytes) (expectedFiles parseLength offset : Nat) (walk : Walk) :
    Option (Walk × Option Nat) := do
  let available := parseLength - offset
  if available < headerLength then return (walk.refuse, none)
  let header := headerOf (← readAt control offset headerLength)
  if header.length < headerLength then return (walk.refuse, none)
  let walk ← classify control offset available header walk
  let walk ← takeRights control expectedFiles offset available header walk
  return advance offset available header walk

/-- The loop, given up after `fuel` records. -/
def parseRecords (control : Bytes) (expectedFiles parseLength : Nat) :
    (fuel offset : Nat) → Walk → Option Walk
  | 0, _, _ => none
  | fuel + 1, offset, walk =>
      if offset < parseLength then do
        match ← parseRecord control expectedFiles parseLength offset walk with
        | (walk, some next) => parseRecords control expectedFiles parseLength fuel next walk
        | (walk, none) => return walk
      else some walk

/-! ### Receiving -/

/-- What `recvmsg` gives back: the length of the control data as the kernel tells it. -/
structure Received where
  count : Int
  control : Bytes
  allocated : control.length = 4096
  returnedLength : Nat
  flags : BitVec 32

/-- The files made of descriptors, those closed on the way out, and what is returned. -/
structure Handled where
  owned : List Int
  closed : List Int
  result : Except ProtocolError (Nat × List Int)

def conclude (received : Received) (peer : Peer) (expectedFiles : Nat) (walk : Walk) : Handled :=
  if received.count ≠ 0 ∧ walk.credentials ≠ some peer then
    ⟨walk.files, walk.files, .error .untrustedPeer⟩
  else if received.flags &&& (MSG_CTRUNC ||| MSG_TRUNC) ≠ 0 ∨
      received.returnedLength > received.control.length ∨
      walk.rightsRecords ≠ (if expectedFiles ≠ 0 then 1 else 0) ∨
      walk.rightsShapeValid = false ∨ walk.files.length ≠ expectedFiles then
    ⟨walk.files, walk.files, .error .request⟩
  else ⟨walk.files, [], .ok (received.count.toNat, walk.files)⟩

def receiveMessage (received : Received) (peer : Peer) (expectedFiles : Nat) : Option Handled :=
  if received.count < 0 then some ⟨[], [], .error .transport⟩
  else
    (parseRecords received.control expectedFiles
      (min received.returnedLength received.control.length) (received.control.length + 1) 0
      Walk.start).map
      (conclude received peer expectedFiles)

/-! ### Records -/

structure Record where
  level : Int
  kind : Int
  payload : Bytes

def Record.isRights (record : Record) : Bool :=
  record.level = SOL_SOCKET ∧ record.kind = SCM_RIGHTS

def Record.isCredentials (record : Record) : Bool :=
  record.level = SOL_SOCKET ∧ record.kind = SCM_CREDENTIALS ∧
    record.payload.length = credentialsSize

theorem not_isCredentials {record : Record} (isRights : record.isRights = true) :
    record.isCredentials ≠ true := by
  intro isCredentials
  have differs : SCM_RIGHTS ≠ SCM_CREDENTIALS := by decide
  exact differs ((of_decide_eq_true isRights).2.symm.trans (of_decide_eq_true isCredentials).2.1)

/-- The complete integers of a payload. -/
def wordsOf : Bytes → List Int
  | first :: second :: third :: fourth :: rest =>
      signedOf [first, second, third, fourth] :: wordsOf rest
  | _ => []

/-- The descriptors in a record. -/
def Record.descriptors (record : Record) : List Int :=
  if record.isRights then (wordsOf record.payload).filter (0 ≤ ·) else []

/-- The bytes between a record and the next aligned offset. -/
def paddingLength (length : Nat) : Nat := (alignment - length % alignment) % alignment

/-- A header that declares so many bytes for its record. -/
structure Heads (head : Bytes) (declared : Nat) (level kind : Int) : Prop where
  length : head.length = headerLength
  header : headerOf head = ⟨declared, level, kind⟩

/-- The records lie behind each other, every next one aligned; the last may lack its padding. -/
inductive Tiles : Bytes → List Record → Prop
  | none : Tiles [] []
  | last {head payload : Bytes} {level kind : Int}
      (heads : Heads head (headerLength + payload.length) level kind) :
      Tiles (head ++ payload) [⟨level, kind, payload⟩]
  | more {head payload padding rest : Bytes} {level kind : Int} {records : List Record}
      (heads : Heads head (headerLength + payload.length) level kind)
      (pads : padding.length = paddingLength (headerLength + payload.length))
      (tiles : Tiles rest records) :
      Tiles (head ++ payload ++ padding ++ rest) (⟨level, kind, payload⟩ :: records)

/-- The descriptors that control data carries: those of every record up to the first that is not
whole, and the complete ones in what there is of that. -/
inductive Carries : Bytes → List Int → Prop
  | short {bytes : Bytes} (short : bytes.length < headerLength) : Carries bytes []
  | malformed {head rest : Bytes} {declared : Nat} {level kind : Int}
      (heads : Heads head declared level kind) (small : declared < headerLength) :
      Carries (head ++ rest) []
  | cut {head payload : Bytes} {declared : Nat} {level kind : Int}
      (heads : Heads head declared level kind)
      (large : headerLength + payload.length < declared) :
      Carries (head ++ payload) (Record.descriptors ⟨level, kind, payload⟩)
  | last {head payload padding : Bytes} {level kind : Int}
      (heads : Heads head (headerLength + payload.length) level kind)
      (pads : padding.length < paddingLength (headerLength + payload.length)) :
      Carries (head ++ payload ++ padding) (Record.descriptors ⟨level, kind, payload⟩)
  | more {head payload padding rest : Bytes} {level kind : Int} {descriptors : List Int}
      (heads : Heads head (headerLength + payload.length) level kind)
      (pads : padding.length = paddingLength (headerLength + payload.length))
      (carries : Carries rest descriptors) :
      Carries (head ++ payload ++ padding ++ rest)
        (Record.descriptors ⟨level, kind, payload⟩ ++ descriptors)

/-! ### One record -/

/-- What a whole record adds. -/
def Walk.record (expectedFiles : Nat) (walk : Walk) (record : Record) : Walk :=
  if record.isCredentials ∧ walk.credentials = none then
    { walk with credentials := some (peerOf record.payload) }
  else if record.isRights then
    let walk := { walk with rightsRecords := walk.rightsRecords + 1 }
    (wordsOf record.payload).foldl Walk.takeDescriptor
      (if record.payload.length ≠ expectedFiles * descriptorSize then walk.refuse else walk)
  else walk.refuse

theorem readAt_eq {control : Bytes} {offset size : Nat} (inside : offset + size ≤ control.length) :
    readAt control offset size = some ((control.drop offset).take size) :=
  if_pos inside

theorem wordsOf_append_of_length {bytes : Bytes} (four : bytes.length = descriptorSize)
    (rest : Bytes) : wordsOf (bytes ++ rest) = signedOf bytes :: wordsOf rest := by
  match bytes, four with
  | [_, _, _, _], _ => rfl

theorem takeDescriptors_eq {control : Bytes} (count : Nat) : ∀ {start : Nat} (walk : Walk),
    start + count * descriptorSize ≤ control.length →
      takeDescriptors control start count walk =
        some ((wordsOf ((control.drop start).take (count * descriptorSize))).foldl
          Walk.takeDescriptor walk) := by
  induction count with
  | zero =>
    intro start walk _
    rw [Nat.zero_mul, List.take_zero]
    rfl
  | succ count inductionHypothesis =>
    intro start walk inside
    rw [Nat.succ_mul] at inside ⊢
    have first : ((control.drop start).take descriptorSize).length = descriptorSize := by
      rw [List.length_take, List.length_drop]
      omega
    have split : (control.drop start).take (count * descriptorSize + descriptorSize) =
        (control.drop start).take descriptorSize ++
          (control.drop (start + descriptorSize)).take (count * descriptorSize) := by
      rw [Nat.add_comm, List.take_add, List.drop_drop]
    rw [takeDescriptors, readAt_eq (by omega), split, wordsOf_append_of_length first,
      List.foldl_cons]
    exact inductionHypothesis _ (by omega)

/-- The bytes behind the last complete integer count for nothing. -/
theorem wordsOf_take : ∀ bytes : Bytes,
    wordsOf (bytes.take (bytes.length / descriptorSize * descriptorSize)) = wordsOf bytes
  | [] => rfl
  | [_] => by simp [wordsOf, descriptorSize]
  | [_, _] => by simp [wordsOf, descriptorSize]
  | [_, _, _] => by simp [wordsOf, descriptorSize]
  | first :: second :: third :: fourth :: rest => by
    have length : (first :: second :: third :: fourth :: rest).length / descriptorSize *
        descriptorSize = rest.length / descriptorSize * descriptorSize + 4 := by
      simp only [List.length_cons, descriptorSize]
      omega
    rw [length]
    exact congrArg (signedOf [first, second, third, fourth] :: ·) (wordsOf_take rest)

/-- What a record adds whose header declares the given length; the payload is what there is. -/
def Walk.absorb (expectedFiles declared : Nat) (record : Record) (walk : Walk) : Walk :=
  if declared = headerLength + record.payload.length then walk.record expectedFiles record
  else if record.isRights then
    (wordsOf record.payload).foldl Walk.takeDescriptor
      { walk with rightsRecords := walk.rightsRecords + 1, rightsShapeValid := false }
  else walk.refuse

variable {control : Bytes} {expectedFiles parseLength offset : Nat} {walk : Walk}

/-- The bytes that the walk has not come to. -/
def ahead (control : Bytes) (parseLength offset : Nat) : Bytes :=
  (control.take parseLength).drop offset

theorem length_ahead (inside : parseLength ≤ control.length) :
    (ahead control parseLength offset).length = parseLength - offset := by
  rw [ahead, List.length_drop, List.length_take_of_le inside]

/-- A read of the bytes ahead. -/
theorem readAt_ahead {rest : Bytes} (inside : parseLength ≤ control.length)
    (isAhead : ahead control parseLength offset = rest) {skipped size : Nat}
    (before : offset < parseLength) (fits : skipped + size ≤ rest.length) :
    readAt control (offset + skipped) size = some ((rest.drop skipped).take size) := by
  have length := @length_ahead control parseLength offset inside
  rw [isAhead] at length
  rw [readAt_eq (by omega), ← isAhead, ahead, List.drop_drop, List.drop_take, List.take_take,
    Nat.min_eq_left (by omega)]

theorem drop_ahead {rest : Bytes} (inside : parseLength ≤ control.length)
    (isAhead : ahead control parseLength offset = rest) {skipped size : Nat}
    (before : offset < parseLength) (fits : skipped + size ≤ rest.length) :
    (control.drop (offset + skipped)).take size = (rest.drop skipped).take size :=
  Option.some.inj ((readAt_eq (by
    have length := @length_ahead control parseLength offset inside
    rw [isAhead] at length
    omega)).symm.trans (readAt_ahead inside isAhead before fits))

/-- The payload of a record of which there may be less than its header declares. -/
structure Holds (control : Bytes) (parseLength offset declared : Nat) (head payload more : Bytes) :
    Prop where
  inside : parseLength ≤ control.length
  before : offset < parseLength
  isAhead : ahead control parseLength offset = head ++ (payload ++ more)
  headed : head.length = headerLength
  proper : headerLength ≤ declared
  isPayload : payload.length = min declared (parseLength - offset) - headerLength

section Record

variable {declared : Nat} {head payload more : Bytes} {level kind : Int}

theorem Holds.available (holds : Holds control parseLength offset declared head payload more) :
    parseLength - offset = headerLength + payload.length + more.length := by
  have length := @length_ahead control parseLength offset holds.inside
  have headed := holds.headed
  rw [holds.isAhead, List.length_append, List.length_append] at length
  omega

theorem Holds.drop (holds : Holds control parseLength offset declared head payload more)
    {size : Nat} (fits : size ≤ payload.length) :
    (control.drop (offset + headerLength)).take size = payload.take size := by
  have headed := holds.headed
  rw [drop_ahead holds.inside holds.isAhead holds.before (by
    rw [List.length_append, List.length_append]
    omega), ← headed, List.drop_left, List.take_append_of_le_length fits]

theorem Holds.read (holds : Holds control parseLength offset declared head payload more)
    {size : Nat} (fits : size ≤ payload.length) :
    readAt control (offset + headerLength) size = some (payload.take size) := by
  have available := holds.available
  have before := holds.before
  have inside := holds.inside
  rw [readAt_eq (by omega), holds.drop fits]

/-- Credentials, and anything that is refused. -/
theorem classify_eq (expectedFiles : Nat)
    (holds : Holds control parseLength offset declared head payload more)
    (noRights : ¬ (level = SOL_SOCKET ∧ kind = SCM_RIGHTS)) :
    classify control offset (parseLength - offset) ⟨declared, level, kind⟩ walk =
      some (walk.absorb expectedFiles declared ⟨level, kind, payload⟩) := by
  have available := holds.available
  have isPayload := holds.isPayload
  have proper := holds.proper
  have notRights : Record.isRights ⟨level, kind, payload⟩ = false := decide_eq_false noRights
  have refused : level ≠ SOL_SOCKET ∨ kind ≠ SCM_RIGHTS := not_and_or.mp noRights
  by_cases isCredentials : level = SOL_SOCKET ∧ kind = SCM_CREDENTIALS ∧
      declared = headerLength + credentialsSize ∧ declared ≤ parseLength - offset ∧
      walk.credentials = none
  · rw [classify, if_pos isCredentials]
    obtain ⟨isSocket, isKind, isLength, fits, first⟩ := isCredentials
    have twelve : payload.length = credentialsSize := by
      simp only [headerLength, credentialsSize] at *
      omega
    have credentials : Record.isCredentials ⟨level, kind, payload⟩ = true :=
      decide_eq_true ⟨isSocket, isKind, twelve⟩
    have whole : declared = headerLength + payload.length := by rw [twelve]; exact isLength
    rw [holds.read twelve.ge, ← twelve, List.take_length, Walk.absorb, if_pos whole, Walk.record,
      if_pos ⟨credentials, first⟩]
    rfl
  · rw [classify, if_neg isCredentials, if_pos refused, Walk.absorb]
    by_cases whole : declared = headerLength + payload.length
    · have other : ¬ (Record.isCredentials ⟨level, kind, payload⟩ = true ∧
          walk.credentials = none) := by
        rintro ⟨credentials, first⟩
        obtain ⟨isSocket, isKind, twelve⟩ := of_decide_eq_true credentials
        exact isCredentials ⟨isSocket, isKind, by rw [whole]; exact congrArg _ twelve, by omega,
          first⟩
      rw [if_pos whole, Walk.record, if_neg other, notRights]
      rfl
    · rw [if_neg whole, notRights]
      rfl

theorem takeRights_eq (holds : Holds control parseLength offset declared head payload more)
    (isRights : level = SOL_SOCKET ∧ kind = SCM_RIGHTS) :
    takeRights control expectedFiles offset (parseLength - offset) ⟨declared, level, kind⟩ walk =
      some (walk.absorb expectedFiles declared ⟨level, kind, payload⟩) := by
  have available := holds.available
  have isPayload := holds.isPayload
  have proper := holds.proper
  have before := holds.before
  have inside := holds.inside
  have rights : Record.isRights ⟨level, kind, payload⟩ = true := decide_eq_true isRights
  have noCredentials : ¬ (Record.isCredentials ⟨level, kind, payload⟩ = true ∧
      walk.credentials = none) := fun credentials => not_isCredentials rights credentials.1
  have fits : payload.length / descriptorSize * descriptorSize ≤ payload.length :=
    Nat.div_mul_le_self _ _
  rw [takeRights, if_pos (show level = 1 ∧ kind = 1 from isRights)]
  simp only [← isPayload]
  rw [takeDescriptors_eq _ _ (by omega), holds.drop fits, wordsOf_take, Walk.absorb]
  by_cases whole : declared = headerLength + payload.length
  · rw [if_pos whole, Walk.record, if_neg noCredentials, if_pos rights]
    have shape : (declared > parseLength - offset ∨ payload.length % descriptorSize ≠ 0 ∨
        declared ≠ headerLength + expectedFiles * descriptorSize) ↔
        payload.length ≠ expectedFiles * descriptorSize := by
      simp only [headerLength, descriptorSize] at *
      omega
    simp only [shape]
  · have cut : declared > parseLength - offset := by omega
    rw [if_neg whole, if_pos rights, if_pos (.inl cut)]
    rfl

/-- The body of the loop at a header that is whole and declares no less than itself. -/
theorem parseRecord_eq (holds : Holds control parseLength offset declared head payload more)
    (header : headerOf head = ⟨declared, level, kind⟩) :
    parseRecord control expectedFiles parseLength offset walk =
      some (advance offset (parseLength - offset) ⟨declared, level, kind⟩
        (walk.absorb expectedFiles declared ⟨level, kind, payload⟩)) := by
  have available := holds.available
  have headed := holds.headed
  have isHeader : readAt control offset headerLength = some head := by
    have read := @readAt_ahead control parseLength offset _ holds.inside holds.isAhead 0
      headerLength holds.before (by rw [List.length_append]; omega)
    rw [Nat.add_zero, List.drop_zero, ← headed, List.take_left] at read
    rwa [← headed]
  have enough : ¬ parseLength - offset < headerLength := by omega
  have proper : ¬ declared < headerLength := holds.proper.not_gt
  rw [parseRecord]
  simp only [if_neg enough, isHeader, header, if_neg proper, Option.bind_eq_bind,
    Option.bind_some]
  by_cases isRights : level = SOL_SOCKET ∧ kind = SCM_RIGHTS
  · have kept : classify control offset (parseLength - offset) ⟨declared, level, kind⟩ walk =
        some walk := by
      have noCredentials : kind ≠ SCM_CREDENTIALS := by
        rw [isRights.2]
        decide
      rw [classify, if_neg fun credentials => noCredentials credentials.2.1,
        if_neg (not_or.mpr ⟨not_not.mpr isRights.1, not_not.mpr isRights.2⟩)]
      rfl
    rw [kept, Option.bind_some, takeRights_eq holds isRights]
    rfl
  · rw [classify_eq expectedFiles holds isRights, Option.bind_some, takeRights,
      if_neg (show ¬ (level = 1 ∧ kind = 1) from isRights)]
    rfl

end Record

/-! ### The way to the next record -/

theorem advance_cut {declared available : Nat} {level kind : Int} (cut : available < declared) :
    advance offset available ⟨declared, level, kind⟩ walk = (walk.refuse, none) :=
  if_pos cut

theorem advance_whole {declared available : Nat} {level kind : Int}
    (proper : headerLength ≤ declared) (whole : declared ≤ available) (small : available ≤ 4096) :
    advance offset available ⟨declared, level, kind⟩ walk =
      if available < declared + paddingLength declared then
        (if declared ≠ available then walk.refuse else walk, none)
      else (walk, some (offset + (declared + paddingLength declared))) := by
  have aligned : (declared + (alignment - 1)) / alignment * alignment =
      declared + paddingLength declared := by
    simp only [alignment, paddingLength]
    omega
  have positive : declared + paddingLength declared ≠ 0 := by
    simp only [headerLength] at proper
    omega
  rw [advance, if_neg (show ¬ declared > available by omega),
    if_neg (show ¬ 2 ^ 64 ≤ declared + (alignment - 1) by simp only [alignment]; omega)]
  simp only [aligned, if_neg positive]

/-! ### The whole walk -/

theorem ahead_append {first rest : Bytes}
    (isAhead : ahead control parseLength offset = first ++ rest) :
    ahead control parseLength (offset + first.length) = rest := by
  rw [ahead, ← List.drop_drop, ← ahead, isAhead, List.drop_left]

theorem parseRecords_end (fuel : Nat) (atEnd : parseLength ≤ offset) :
    parseRecords control expectedFiles parseLength (fuel + 1) offset walk = some walk :=
  if_neg atEnd.not_gt

section Record

variable {declared : Nat} {head payload more : Bytes} {level kind : Int}

theorem parseRecords_step (fuel : Nat)
    (holds : Holds control parseLength offset declared head payload more)
    (header : headerOf head = ⟨declared, level, kind⟩) :
    parseRecords control expectedFiles parseLength (fuel + 1) offset walk =
      match advance offset (parseLength - offset) ⟨declared, level, kind⟩
        (walk.absorb expectedFiles declared ⟨level, kind, payload⟩) with
      | (walk, some next) => parseRecords control expectedFiles parseLength fuel next walk
      | (walk, none) => some walk := by
  rw [parseRecords, if_pos holds.before, parseRecord_eq holds header]
  rfl

/-- A record that is whole. -/
theorem parseRecords_whole (fuel : Nat) (inside : parseLength ≤ control.length)
    (small : control.length ≤ 4096) (heads : Heads head (headerLength + payload.length) level kind)
    (isAhead : ahead control parseLength offset = head ++ (payload ++ more)) :
    parseRecords control expectedFiles parseLength (fuel + 1) offset walk =
      if more.length < paddingLength (headerLength + payload.length) then
        some (if more ≠ [] then (walk.record expectedFiles ⟨level, kind, payload⟩).refuse
          else walk.record expectedFiles ⟨level, kind, payload⟩)
      else parseRecords control expectedFiles parseLength fuel
        (offset + (headerLength + payload.length + paddingLength (headerLength + payload.length)))
        (walk.record expectedFiles ⟨level, kind, payload⟩) := by
  have length := @length_ahead control parseLength offset inside
  have headed := heads.length
  rw [isAhead, List.length_append, List.length_append, headed] at length
  have positive : 0 < headerLength := by decide
  have holds : Holds control parseLength offset (headerLength + payload.length) head payload more :=
    ⟨inside, by omega, isAhead, headed, by omega, by omega⟩
  have absorbed : walk.absorb expectedFiles (headerLength + payload.length) ⟨level, kind, payload⟩ =
      walk.record expectedFiles ⟨level, kind, payload⟩ := if_pos rfl
  rw [parseRecords_step fuel holds heads.header, advance_whole (by omega) (by omega) (by omega),
    absorbed]
  by_cases last : more.length < paddingLength (headerLength + payload.length)
  · rw [if_pos last, if_pos (by omega)]
    have nothing : headerLength + payload.length ≠ parseLength - offset ↔ more ≠ [] := by
      rw [← List.length_pos_iff]
      omega
    simp only [nothing]
  · rw [if_neg last, if_neg (by omega)]

/-- A record of which a part is missing. -/
theorem parseRecords_cut (fuel : Nat) (inside : parseLength ≤ control.length)
    (heads : Heads head declared level kind) (cut : headerLength + payload.length < declared)
    (isAhead : ahead control parseLength offset = head ++ payload) :
    parseRecords control expectedFiles parseLength (fuel + 1) offset walk =
      some (walk.absorb expectedFiles declared ⟨level, kind, payload⟩).refuse := by
  have length := @length_ahead control parseLength offset inside
  have headed := heads.length
  rw [isAhead, List.length_append, headed] at length
  have positive : 0 < headerLength := by decide
  have holds : Holds control parseLength offset declared head payload [] :=
    ⟨inside, by omega, by rw [List.append_nil, isAhead], headed, by omega, by omega⟩
  rw [parseRecords_step fuel holds heads.header, advance_cut (by omega)]

/-- No header, or one that declares less than itself. -/
theorem parseRecords_malformed (fuel : Nat) (inside : parseLength ≤ control.length)
    (before : offset < parseLength)
    (malformed : parseLength - offset < headerLength ∨ ∃ head rest declared level kind,
      Heads head declared level kind ∧ declared < headerLength ∧
        ahead control parseLength offset = head ++ rest) :
    parseRecords control expectedFiles parseLength (fuel + 1) offset walk = some walk.refuse := by
  rw [parseRecords, if_pos before, parseRecord]
  rcases malformed with short | ⟨head, rest, declared, level, kind, heads, small, isAhead⟩
  · simp only [if_pos short]
    rfl
  · have length := @length_ahead control parseLength offset inside
    have headed := heads.length
    rw [isAhead, List.length_append, headed] at length
    have isHeader : readAt control offset headerLength = some head := by
      have read := @readAt_ahead control parseLength offset _ inside isAhead 0 headerLength before
        (by rw [List.length_append]; omega)
      rwa [Nat.add_zero, List.drop_zero, ← headed, List.take_left, headed] at read
    have enough : ¬ parseLength - offset < headerLength := by omega
    simp only [if_neg enough, isHeader, heads.header, if_pos small, Option.bind_eq_bind,
      Option.bind_some]
    rfl

end Record

/-- The walk over records that tile what is ahead. -/
theorem parseRecords_of_tiles {bytes : Bytes} {records : List Record} (tiles : Tiles bytes records)
    (inside : parseLength ≤ control.length) (small : control.length ≤ 4096) :
    ∀ (fuel offset : Nat) (walk : Walk), ahead control parseLength offset = bytes →
      bytes.length < fuel →
        parseRecords control expectedFiles parseLength fuel offset walk =
          some (records.foldl (Walk.record expectedFiles) walk) := by
  induction tiles with
  | none =>
    intro fuel offset walk isAhead enough
    have length := @length_ahead control parseLength offset inside
    rw [isAhead] at length
    obtain ⟨fuel, rfl⟩ := Nat.exists_eq_succ_of_ne_zero enough.ne_bot
    exact parseRecords_end fuel (Nat.le_of_sub_eq_zero length.symm)
  | @last head payload level kind heads =>
    intro fuel offset walk isAhead enough
    have headed := heads.length
    rw [List.length_append, headed] at enough
    obtain ⟨fuel, rfl⟩ := Nat.exists_eq_succ_of_ne_zero (Nat.ne_zero_of_lt enough)
    rw [parseRecords_whole fuel inside small heads (by rw [List.append_nil, isAhead])]
    by_cases padded : ([] : Bytes).length < paddingLength (headerLength + payload.length)
    · rw [if_pos padded, if_neg (not_not.mpr rfl)]
      rfl
    · have length := @length_ahead control parseLength offset inside
      rw [isAhead, List.length_append, headed] at length
      have positive : 0 < headerLength := by decide
      obtain ⟨fuel, rfl⟩ := Nat.exists_eq_succ_of_ne_zero (show fuel ≠ 0 by omega)
      rw [if_neg padded]
      exact parseRecords_end fuel (by omega)
  | @more head payload padding rest level kind records heads pads tiles inductionHypothesis =>
    intro fuel offset walk isAhead enough
    have headed := heads.length
    have first : (head ++ payload ++ padding).length =
        headerLength + payload.length + paddingLength (headerLength + payload.length) := by
      rw [List.length_append, List.length_append, headed, pads]
    have positive : 0 < headerLength := by decide
    rw [List.length_append, first] at enough
    obtain ⟨fuel, rfl⟩ := Nat.exists_eq_succ_of_ne_zero (Nat.ne_zero_of_lt enough)
    have next := ahead_append isAhead
    rw [first] at next
    rw [List.append_assoc, List.append_assoc] at isAhead
    have enoughPadding : ¬ (padding ++ rest).length <
        paddingLength (headerLength + payload.length) := by
      rw [List.length_append]
      omega
    rw [parseRecords_whole fuel inside small heads isAhead, if_neg enoughPadding]
    exact inductionHypothesis fuel _ _ next (by omega)

theorem foldl_takeDescriptor (words : List Int) : ∀ walk : Walk,
    words.foldl Walk.takeDescriptor walk =
      { walk with
        files := walk.files ++ words.filter (0 ≤ ·)
        rightsShapeValid := walk.rightsShapeValid && words.all (0 ≤ ·) } := by
  induction words with
  | nil =>
    intro walk
    rw [List.filter_nil, List.append_nil, List.all_nil, Bool.and_true]
    rfl
  | cons word words inductionHypothesis =>
    intro walk
    rw [List.foldl_cons, inductionHypothesis, Walk.takeDescriptor, List.all_cons]
    by_cases negative : word < 0
    · rw [if_pos negative, List.filter_cons_of_neg (by simpa using negative),
        decide_eq_false negative.not_ge, Bool.false_and, Bool.and_false]
      rfl
    · have descriptor : 0 ≤ word := not_lt.mp negative
      rw [if_neg negative, List.filter_cons_of_pos (by simpa using descriptor),
        decide_eq_true descriptor, Bool.true_and, List.append_assoc]
      rfl

theorem files_record (record : Record) :
    (walk.record expectedFiles record).files = walk.files ++ record.descriptors := by
  rw [Walk.record, Record.descriptors]
  by_cases isRights : record.isRights = true
  · rw [if_pos isRights, if_neg fun credentials => not_isCredentials isRights credentials.1,
      if_pos isRights, foldl_takeDescriptor]
    split <;> rfl
  · rw [if_neg isRights, if_neg isRights, List.append_nil]
    split <;> rfl

theorem files_absorb (declared : Nat) (record : Record) :
    (walk.absorb expectedFiles declared record).files = walk.files ++ record.descriptors := by
  rw [Walk.absorb]
  by_cases whole : declared = headerLength + record.payload.length
  · rw [if_pos whole, files_record]
  · rw [if_neg whole, Record.descriptors]
    by_cases isRights : record.isRights = true
    · rw [if_pos isRights, if_pos isRights, foldl_takeDescriptor]
    · rw [if_neg isRights, if_neg isRights, List.append_nil]
      rfl

/-- What control data begins with: no header, one that declares less than itself, a record of which
a part is missing, or a whole one. -/
theorem control_cases (bytes : Bytes) : bytes.length < headerLength ∨
    (∃ head rest declared level kind, Heads head declared level kind ∧ declared < headerLength ∧
      bytes = head ++ rest) ∨
    (∃ head payload declared level kind, Heads head declared level kind ∧
      headerLength + payload.length < declared ∧ bytes = head ++ payload) ∨
    ∃ head payload more level kind, Heads head (headerLength + payload.length) level kind ∧
      bytes = head ++ (payload ++ more) := by
  rcases Nat.lt_or_ge bytes.length headerLength with short | enough
  · exact .inl short
  have heads : Heads (bytes.take headerLength) (headerOf (bytes.take headerLength)).length
      (headerOf (bytes.take headerLength)).level (headerOf (bytes.take headerLength)).kind :=
    ⟨List.length_take_of_le enough, rfl⟩
  have split : bytes = bytes.take headerLength ++ bytes.drop headerLength :=
    (List.take_append_drop _ _).symm
  revert heads
  generalize (headerOf (bytes.take headerLength)).length = declared
  intro heads
  rcases Nat.lt_or_ge declared headerLength with small | proper
  · exact .inr (.inl ⟨_, _, _, _, _, heads, small, split⟩)
  rcases Nat.lt_or_ge (headerLength + (bytes.drop headerLength).length) declared with cut | whole
  · exact .inr (.inr (.inl ⟨_, _, _, _, _, heads, cut, split⟩))
  · have payload : ((bytes.drop headerLength).take (declared - headerLength)).length =
        declared - headerLength := List.length_take_of_le (by omega)
    rw [← Nat.add_sub_cancel' proper, ← payload] at heads
    refine .inr (.inr (.inr ⟨_, _, (bytes.drop headerLength).drop (declared - headerLength), _, _,
      heads, ?_⟩))
    rw [List.take_append_drop]
    exact split

/-- The walk ends; it has taken every descriptor that the data carries, and it refuses data that
no records tile. -/
theorem parseRecords_total (inside : parseLength ≤ control.length)
    (small : control.length ≤ 4096) : ∀ (fuel offset : Nat) (walk : Walk),
      parseLength - offset < fuel → ∃ final descriptors,
        parseRecords control expectedFiles parseLength fuel offset walk = some final ∧
          Carries (ahead control parseLength offset) descriptors ∧
          final.files = walk.files ++ descriptors ∧
          (final.rightsShapeValid = true →
            ∃ records, Tiles (ahead control parseLength offset) records)
  | 0, _, _, enough => absurd enough (Nat.not_lt_zero _)
  | fuel + 1, offset, walk, enough => by
    have length := @length_ahead control parseLength offset inside
    have positive : 0 < headerLength := by decide
    by_cases atEnd : parseLength ≤ offset
    · have nothing : ahead control parseLength offset = [] :=
        List.eq_nil_of_length_eq_zero (length.trans (Nat.sub_eq_zero_of_le atEnd))
      rw [nothing]
      exact ⟨walk, [], parseRecords_end fuel atEnd, .short positive, (List.append_nil _).symm,
        fun _ => ⟨[], .none⟩⟩
    have before : offset < parseLength := Nat.lt_of_not_le atEnd
    rcases control_cases (ahead control parseLength offset) with short |
      ⟨head, rest, declared, level, kind, heads, malformed, isAhead⟩ |
      ⟨head, payload, declared, level, kind, heads, cut, isAhead⟩ |
      ⟨head, payload, more, level, kind, heads, isAhead⟩
    · exact ⟨walk.refuse, [], parseRecords_malformed fuel inside before (.inl (length ▸ short)),
        .short short, (List.append_nil _).symm, fun valid => Bool.noConfusion valid⟩
    · refine ⟨walk.refuse, [], parseRecords_malformed fuel inside before
        (.inr ⟨_, _, _, _, _, heads, malformed, isAhead⟩), ?_, (List.append_nil _).symm,
        fun valid => Bool.noConfusion valid⟩
      rw [isAhead]
      exact .malformed heads malformed
    · refine ⟨_, _, parseRecords_cut fuel inside heads cut isAhead, ?_,
        files_absorb declared ⟨level, kind, payload⟩, fun valid => Bool.noConfusion valid⟩
      rw [isAhead]
      exact .cut heads cut
    · rw [parseRecords_whole fuel inside small heads isAhead]
      have headed := heads.length
      rw [isAhead, List.length_append, List.length_append, headed] at length
      by_cases last : more.length < paddingLength (headerLength + payload.length)
      · rw [if_pos last, isAhead, ← List.append_assoc]
        refine ⟨_, _, rfl, .last heads last, ?_, ?_⟩
        · rw [← files_record ⟨level, kind, payload⟩]
          split <;> rfl
        · intro valid
          cases more with
          | nil =>
            rw [List.append_nil]
            exact ⟨_, .last heads⟩
          | cons byte more => exact Bool.noConfusion valid
      · rw [if_neg last]
        have pads : (more.take (paddingLength (headerLength + payload.length))).length =
            paddingLength (headerLength + payload.length) := List.length_take_of_le (by omega)
        have split : head ++ (payload ++ more) =
            head ++ payload ++ more.take (paddingLength (headerLength + payload.length)) ++
              more.drop (paddingLength (headerLength + payload.length)) := by
          rw [List.append_assoc (head ++ payload), List.take_append_drop, List.append_assoc]
        have first : (head ++ payload ++
            more.take (paddingLength (headerLength + payload.length))).length =
            headerLength + payload.length + paddingLength (headerLength + payload.length) := by
          rw [List.length_append, List.length_append, headed, pads]
        have next := ahead_append (isAhead.trans split)
        rw [first] at next
        obtain ⟨final, descriptors, run, carries, files, tiles⟩ :=
          parseRecords_total inside small fuel (offset + (headerLength + payload.length +
            paddingLength (headerLength + payload.length)))
            (walk.record expectedFiles ⟨level, kind, payload⟩) (by omega)
        rw [next] at carries tiles
        rw [isAhead, split]
        refine ⟨final, _, run, .more heads pads carries, ?_, fun valid => ?_⟩
        · rw [files, files_record, List.append_assoc]
        · obtain ⟨records, tiles⟩ := tiles valid
          exact ⟨_, .more heads pads tiles⟩

/-! ### What is accepted -/

/-- A record of descriptors as they are expected, or one of credentials. -/
def Record.Expected (expectedFiles : Nat) (record : Record) : Prop :=
  (record.isRights = true ∧ record.payload.length = expectedFiles * descriptorSize ∧
    ∀ word ∈ wordsOf record.payload, 0 ≤ word) ∨ record.isCredentials = true

/-- What each of the four kinds of a record makes of a walk. -/
theorem record_cases (record : Record) :
    (record.isCredentials = true ∧ record.isRights = false ∧
      (walk.credentials = none ∧ walk.record expectedFiles record =
          { walk with credentials := some (peerOf record.payload) } ∨
        walk.credentials ≠ none ∧ walk.record expectedFiles record = walk.refuse)) ∨
    (record.isCredentials = false ∧ record.isRights = true ∧
      walk.record expectedFiles record =
        { walk with
          files := walk.files ++ record.descriptors
          rightsRecords := walk.rightsRecords + 1
          rightsShapeValid := walk.rightsShapeValid &&
            decide (record.payload.length = expectedFiles * descriptorSize) &&
              (wordsOf record.payload).all (0 ≤ ·) }) ∨
    record.isCredentials = false ∧ record.isRights = false ∧
      walk.record expectedFiles record = walk.refuse := by
  rw [Walk.record, Record.descriptors]
  cases isRights : record.isRights with
  | true =>
    have noCredentials : record.isCredentials = false :=
      Bool.eq_false_of_not_eq_true (not_isCredentials isRights)
    refine .inr (.inl ⟨noCredentials, rfl, ?_⟩)
    rw [if_neg (fun credentials => not_isCredentials isRights credentials.1), if_pos rfl,
      if_pos rfl, foldl_takeDescriptor]
    by_cases shape : record.payload.length = expectedFiles * descriptorSize
    · rw [if_neg (not_not.mpr shape), decide_eq_true shape, Bool.and_true]
    · rw [if_pos shape, decide_eq_false shape, Bool.and_false]
      rfl
  | false =>
    cases isCredentials : record.isCredentials with
    | false =>
      refine .inr (.inr ⟨rfl, rfl, ?_⟩)
      rw [if_neg fun credentials => Bool.false_ne_true credentials.1, if_neg Bool.false_ne_true]
    | true =>
      refine .inl ⟨rfl, rfl, ?_⟩
      by_cases first : walk.credentials = none
      · exact .inl ⟨first, if_pos ⟨rfl, first⟩⟩
      · refine .inr ⟨first, ?_⟩
        rw [if_neg fun credentials => first credentials.2, if_neg Bool.false_ne_true]

theorem valid_foldl (records : List Record) : ∀ walk : Walk,
    (records.foldl (Walk.record expectedFiles) walk).rightsShapeValid = true ↔
      walk.rightsShapeValid = true ∧ (∀ record ∈ records, record.Expected expectedFiles) ∧
        walk.credentials.toList.length + (records.filter Record.isCredentials).length ≤ 1 := by
  induction records with
  | nil =>
    intro walk
    have atMost : walk.credentials.toList.length ≤ 1 := by cases walk.credentials <;> simp
    exact (and_iff_left ⟨List.forall_mem_nil _, atMost⟩).symm
  | cons record records inductionHypothesis =>
    intro walk
    rw [List.foldl_cons, inductionHypothesis, List.forall_mem_cons]
    rcases @record_cases expectedFiles walk record with
      ⟨isCredentials, notRights, ⟨first, adds⟩ | ⟨second, refuses⟩⟩ |
      ⟨notCredentials, isRights, adds⟩ | ⟨notCredentials, notRights, refuses⟩
    · have expected : record.Expected expectedFiles := .inr isCredentials
      rw [adds, first, List.filter_cons_of_pos isCredentials, and_iff_right expected]
      refine and_congr_right fun _ => and_congr_right fun _ => ?_
      simp only [Option.toList_some, Option.toList_none, List.length_cons, List.length_nil]
      omega
    · -- the second credentials
      rw [refuses, List.filter_cons_of_pos isCredentials]
      refine iff_of_false (fun holds => Bool.false_ne_true holds.1) fun holds => ?_
      obtain ⟨credentials, seen⟩ := Option.ne_none_iff_exists'.mp second
      have atMost := holds.2.2
      rw [seen, Option.toList_some, List.length_singleton, List.length_cons] at atMost
      omega
    · have expected : record.Expected expectedFiles ↔
          record.payload.length = expectedFiles * descriptorSize ∧
            ∀ word ∈ wordsOf record.payload, 0 ≤ word := by
        rw [Record.Expected, notCredentials, or_iff_left Bool.false_ne_true, and_iff_right isRights]
      rw [adds, List.filter_cons_of_neg (by rw [notCredentials]; exact Bool.false_ne_true),
        expected]
      simp only [Bool.and_eq_true, decide_eq_true_eq, List.all_eq_true, and_assoc]
    · have unexpected : ¬ record.Expected expectedFiles := by
        rw [Record.Expected, notCredentials, notRights]
        exact not_or.mpr ⟨fun holds => Bool.false_ne_true holds.1, Bool.false_ne_true⟩
      rw [refuses]
      exact iff_of_false (fun holds => Bool.false_ne_true holds.1)
        fun holds => unexpected holds.2.1.1

theorem credentials_foldl (records : List Record) : ∀ walk : Walk,
    (records.foldl (Walk.record expectedFiles) walk).credentials =
      walk.credentials.or ((records.find? Record.isCredentials).map fun record =>
        peerOf record.payload) := by
  induction records with
  | nil => exact fun walk => Option.or_none.symm
  | cons record records inductionHypothesis =>
    intro walk
    rw [List.foldl_cons, inductionHypothesis]
    rcases @record_cases expectedFiles walk record with
      ⟨isCredentials, notRights, ⟨first, adds⟩ | ⟨second, refuses⟩⟩ |
      ⟨notCredentials, isRights, adds⟩ | ⟨notCredentials, notRights, refuses⟩
    · rw [adds, first, List.find?_cons_of_pos isCredentials]
      rfl
    · obtain ⟨credentials, seen⟩ := Option.ne_none_iff_exists'.mp second
      rw [refuses, Walk.refuse, seen]
      rfl
    · rw [adds, List.find?_cons_of_neg (by rw [notCredentials]; exact Bool.false_ne_true)]
    · rw [refuses, List.find?_cons_of_neg (by rw [notCredentials]; exact Bool.false_ne_true)]
      rfl

theorem rightsRecords_foldl (records : List Record) : ∀ walk : Walk,
    (records.foldl (Walk.record expectedFiles) walk).rightsRecords =
      walk.rightsRecords + (records.filter Record.isRights).length := by
  induction records with
  | nil => exact fun walk => rfl
  | cons record records inductionHypothesis =>
    intro walk
    rw [List.foldl_cons, inductionHypothesis]
    rcases @record_cases expectedFiles walk record with
      ⟨isCredentials, notRights, ⟨first, adds⟩ | ⟨second, refuses⟩⟩ |
      ⟨notCredentials, isRights, adds⟩ | ⟨notCredentials, notRights, refuses⟩
    · rw [adds, List.filter_cons_of_neg (by rw [notRights]; exact Bool.false_ne_true)]
    · rw [refuses, List.filter_cons_of_neg (by rw [notRights]; exact Bool.false_ne_true)]
      rfl
    · rw [adds, List.filter_cons_of_pos isRights, List.length_cons]
      exact Nat.succ_add_eq_add_succ _ _
    · rw [refuses, List.filter_cons_of_neg (by rw [notRights]; exact Bool.false_ne_true)]
      rfl

theorem files_foldl (records : List Record) : ∀ walk : Walk,
    (records.foldl (Walk.record expectedFiles) walk).files =
      walk.files ++ records.flatMap Record.descriptors := by
  induction records with
  | nil => exact fun walk => (List.append_nil _).symm
  | cons record records inductionHypothesis =>
    intro walk
    rw [List.foldl_cons, inductionHypothesis, files_record, List.flatMap_cons, List.append_assoc]

theorem length_wordsOf : ∀ bytes : Bytes, (wordsOf bytes).length = bytes.length / descriptorSize
  | [] => rfl
  | [_] => by simp [wordsOf, descriptorSize]
  | [_, _] => by simp [wordsOf, descriptorSize]
  | [_, _, _] => by simp [wordsOf, descriptorSize]
  | _ :: _ :: _ :: _ :: rest => by
    simp only [wordsOf, List.length_cons, length_wordsOf rest, descriptorSize]
    omega

theorem flatMap_descriptors (records : List Record) :
    records.flatMap Record.descriptors =
      (records.filter Record.isRights).flatMap Record.descriptors := by
  induction records with
  | nil => rfl
  | cons record records inductionHypothesis =>
    rw [List.flatMap_cons, inductionHypothesis]
    by_cases isRights : record.isRights = true
    · rw [List.filter_cons_of_pos isRights, List.flatMap_cons]
    · rw [List.filter_cons_of_neg isRights, Record.descriptors, if_neg isRights, List.nil_append]

theorem descriptors_of_nonneg {record : Record} (isRights : record.isRights = true)
    (descriptors : ∀ word ∈ wordsOf record.payload, 0 ≤ word) :
    record.descriptors = wordsOf record.payload := by
  rw [Record.descriptors, if_pos isRights]
  exact List.filter_eq_self.mpr fun word member => decide_eq_true (descriptors word member)

/-- The records of control data as they are agreed on: one of descriptors if any are expected, all
of them given, and credentials once at most. -/
structure AgreedRecords (expectedFiles : Nat) (records : List Record) (files : List Int) :
    Prop where
  kinds : ∀ record ∈ records, record.isRights = true ∨ record.isCredentials = true
  rights : (expectedFiles = 0 ∧ records.filter Record.isRights = [] ∧ files = []) ∨
    expectedFiles ≠ 0 ∧ ∃ record, records.filter Record.isRights = [record] ∧
      record.payload.length = expectedFiles * descriptorSize ∧ files = wordsOf record.payload ∧
        ∀ file ∈ files, 0 ≤ file
  credentials : (records.filter Record.isCredentials).length ≤ 1

theorem agreedRecords_iff (records : List Record) (files : List Int) :
    AgreedRecords expectedFiles records files ↔
      (records.foldl (Walk.record expectedFiles) Walk.start).rightsShapeValid = true ∧
        (records.foldl (Walk.record expectedFiles) Walk.start).rightsRecords =
          (if expectedFiles ≠ 0 then 1 else 0) ∧
        (records.foldl (Walk.record expectedFiles) Walk.start).files.length = expectedFiles ∧
        files = (records.foldl (Walk.record expectedFiles) Walk.start).files := by
  rw [valid_foldl, rightsRecords_foldl, files_foldl, flatMap_descriptors]
  have inFilter {record : Record} (member : record ∈ records) (isRights : record.isRights = true) :
      record ∈ records.filter Record.isRights := List.mem_filter.mpr ⟨member, isRights⟩
  constructor
  · intro agreed
    have noMore : Walk.start.credentials.toList.length +
        (records.filter Record.isCredentials).length ≤ 1 := by
      rw [show Walk.start.credentials.toList.length = 0 from rfl, Nat.zero_add]
      exact agreed.credentials
    rcases agreed.rights with ⟨rfl, nothing, rfl⟩ | ⟨present, record, one, shape, rfl, descriptors⟩
    · refine ⟨⟨rfl, fun record member => ?_, noMore⟩, ?_⟩
      · refine .inr ((agreed.kinds record member).resolve_left fun isRights => ?_)
        have absurdMember := inFilter member isRights
        rw [nothing] at absurdMember
        cases absurdMember
      · rw [nothing]
        exact ⟨rfl, rfl, rfl⟩
    · have isRights : record.isRights = true :=
        (List.mem_filter.mp (one ▸ List.mem_singleton_self record)).2
      have words := descriptors_of_nonneg isRights descriptors
      refine ⟨⟨rfl, fun other member => ?_, noMore⟩, ?_⟩
      · refine (agreed.kinds other member).imp_left fun otherRights => ?_
        have same := inFilter member otherRights
        rw [one] at same
        obtain rfl := List.mem_singleton.mp same
        exact ⟨isRights, shape, descriptors⟩
      · rw [one, List.flatMap_singleton, words, if_pos present]
        refine ⟨rfl, ?_, rfl⟩
        rw [show Walk.start.files = [] from rfl, List.nil_append, length_wordsOf, shape]
        exact Nat.mul_div_cancel _ (by decide)
  · rintro ⟨⟨-, expected, noMore⟩, count, length, rfl⟩
    rw [show Walk.start.rightsRecords = 0 from rfl, Nat.zero_add] at count
    refine ⟨fun record member => (expected record member).imp_left And.left, ?_, ?_⟩
    · by_cases present : expectedFiles = 0
      · rw [if_neg (not_not.mpr present)] at count
        have nothing := List.eq_nil_of_length_eq_zero count
        exact .inl ⟨present, nothing, by rw [nothing]; rfl⟩
      · rw [if_pos present] at count
        obtain ⟨record, one⟩ := List.length_eq_one_iff.mp count
        have inRecords := List.mem_filter.mp (one ▸ List.mem_singleton_self record)
        obtain ⟨-, shape, descriptors⟩ := (expected record inRecords.1).resolve_right
          (not_isCredentials inRecords.2)
        have words := descriptors_of_nonneg inRecords.2 descriptors
        refine .inr ⟨present, record, one, shape, ?_⟩
        rw [one, List.flatMap_singleton, words]
        exact ⟨rfl, descriptors⟩
    · rwa [show Walk.start.credentials.toList.length = 0 from rfl, Nat.zero_add] at noMore

/-- What the two sides agree on: the records tile the control data, and unless the stream has
ended the credentials are the connected peer's. -/
structure Agreed (received : Received) (peer : Peer) (expectedFiles : Nat) (files : List Int) :
    Prop where
  untruncated : received.flags &&& (MSG_CTRUNC ||| MSG_TRUNC) = 0
  whole : received.returnedLength ≤ received.control.length
  records : ∃ records, Tiles (received.control.take received.returnedLength) records ∧
    AgreedRecords expectedFiles records files ∧
      (received.count ≠ 0 → ∃ record ∈ records, record.isCredentials = true ∧
        peerOf record.payload = peer)

def Handled.returned (handled : Handled) : List Int :=
  match handled.result with
  | .ok (_, files) => files
  | .error _ => []

theorem peer_iff {records : List Record}
    (atMost : (records.filter Record.isCredentials).length ≤ 1) (peer : Peer) :
    (records.foldl (Walk.record expectedFiles) Walk.start).credentials = some peer ↔
      ∃ record ∈ records, record.isCredentials = true ∧ peerOf record.payload = peer := by
  rw [credentials_foldl, show Walk.start.credentials = none from rfl, Option.none_or,
    Option.map_eq_some_iff]
  constructor
  · rintro ⟨record, found, same⟩
    exact ⟨record, List.mem_of_find?_eq_some found, List.find?_some found, same⟩
  · rintro ⟨record, member, isCredentials, same⟩
    refine ⟨record, ?_, same⟩
    have inFilter : record ∈ records.filter Record.isCredentials :=
      List.mem_filter.mpr ⟨member, isCredentials⟩
    obtain ⟨only, one⟩ := List.length_eq_one_iff.mp
      (Nat.le_antisymm atMost (List.length_pos_of_mem inFilter))
    rw [one] at inFilter
    obtain rfl := List.mem_singleton.mp inFilter
    rw [← List.head?_filter, one]
    rfl

theorem conclude_cases (received : Received) (peer : Peer) (walk : Walk) :
    (conclude received peer expectedFiles walk).owned = walk.files ∧
      walk.files = (conclude received peer expectedFiles walk).closed ++
        (conclude received peer expectedFiles walk).returned ∧
      ∀ count files, (conclude received peer expectedFiles walk).result = .ok (count, files) ↔
        (received.count ≠ 0 → walk.credentials = some peer) ∧
          received.flags &&& (MSG_CTRUNC ||| MSG_TRUNC) = 0 ∧
          received.returnedLength ≤ received.control.length ∧
          walk.rightsRecords = (if expectedFiles ≠ 0 then 1 else 0) ∧
          walk.rightsShapeValid = true ∧ walk.files.length = expectedFiles ∧
          received.count.toNat = count ∧ files = walk.files := by
  by_cases untrusted : received.count ≠ 0 ∧ walk.credentials ≠ some peer
  · rw [conclude, if_pos untrusted]
    refine ⟨rfl, (List.append_nil _).symm, fun count files => ?_⟩
    exact iff_of_false (fun returned => by cases returned)
      fun holds => untrusted.2 (holds.1 untrusted.1)
  · have trusted : received.count ≠ 0 → walk.credentials = some peer := fun more =>
      not_not.mp fun other => untrusted ⟨more, other⟩
    by_cases refused : received.flags &&& (MSG_CTRUNC ||| MSG_TRUNC) ≠ 0 ∨
        received.returnedLength > received.control.length ∨
        walk.rightsRecords ≠ (if expectedFiles ≠ 0 then 1 else 0) ∨
        walk.rightsShapeValid = false ∨ walk.files.length ≠ expectedFiles
    · rw [conclude, if_neg untrusted, if_pos refused]
      refine ⟨rfl, (List.append_nil _).symm, fun count files => ?_⟩
      refine iff_of_false (fun returned => by cases returned) ?_
      rintro ⟨-, flags, whole, rights, valid, length, -, -⟩
      rcases refused with otherFlags | more | otherRights | invalid | otherLength
      · exact otherFlags flags
      · exact absurd whole more.not_ge
      · exact otherRights rights
      · exact Bool.false_ne_true (invalid.symm.trans valid)
      · exact otherLength length
    · rw [conclude, if_neg untrusted, if_neg refused]
      refine ⟨rfl, rfl, fun count files => ?_⟩
      simp only [not_or, not_not, not_lt, Bool.not_eq_false, gt_iff_lt] at refused
      obtain ⟨flags, whole, rights, valid, length⟩ := refused
      rw [Except.ok.injEq, Prod.mk.injEq]
      constructor
      · rintro ⟨isCount, isFiles⟩
        exact ⟨trusted, flags, whole, rights, valid, length, isCount, isFiles.symm⟩
      · rintro ⟨-, -, -, -, -, -, isCount, isFiles⟩
        exact ⟨isCount, isFiles.symm⟩

/-- A message is always received, without a read outside the storage. What is returned and what is
closed are together what the control data carries, each once; and a message is returned just when it
is as agreed. -/
theorem receiveMessage_exact (received : Received) (peer : Peer) (expectedFiles : Nat) :
    ∃ handled, receiveMessage received peer expectedFiles = some handled ∧
      (0 ≤ received.count →
        Carries (received.control.take received.returnedLength) handled.owned) ∧
      handled.owned = handled.closed ++ handled.returned ∧
      ∀ count files, handled.result = .ok (count, files) ↔
        received.count = (count : Int) ∧ Agreed received peer expectedFiles files := by
  have allocated := received.allocated
  by_cases failed : received.count < 0
  · refine ⟨_, if_pos failed, fun counted => absurd failed counted.not_gt, rfl,
      fun count files => ?_⟩
    exact iff_of_false (fun returned => by cases returned) fun holds => by omega
  have inside : min received.returnedLength received.control.length ≤ received.control.length :=
    Nat.min_le_right _ _
  have isAhead : ahead received.control (min received.returnedLength received.control.length) 0 =
      received.control.take received.returnedLength := by
    rw [ahead, List.drop_zero, ← List.take_eq_take_min]
  have length := @length_ahead received.control
    (min received.returnedLength received.control.length) 0 inside
  obtain ⟨final, descriptors, run, carries, taken, tiled⟩ := @parseRecords_total _ expectedFiles _
    inside allocated.le (received.control.length + 1) 0 Walk.start (by omega)
  rw [isAhead] at carries tiled
  rw [show Walk.start.files = [] from rfl, List.nil_append] at taken
  obtain ⟨owned, parted, accepted⟩ := @conclude_cases expectedFiles received peer final
  refine ⟨conclude received peer expectedFiles final, ?_, fun _ => ?_, owned.trans parted,
    fun count files => ?_⟩
  · rw [receiveMessage, if_neg failed, run]
    rfl
  · rw [owned, taken]
    exact carries
  · have ofTiles {records : List Record}
        (tiles : Tiles (received.control.take received.returnedLength) records) :
        final = records.foldl (Walk.record expectedFiles) Walk.start := by
      have same := @parseRecords_of_tiles _ expectedFiles _ _ _ tiles inside allocated.le
        (received.control.length + 1) 0 Walk.start isAhead
        (Nat.lt_succ_of_le (List.length_take_le' _ _))
      exact Option.some.inj (run.symm.trans same)
    rw [accepted]
    constructor
    · rintro ⟨trusted, flags, whole, rights, valid, length, isCount, isFiles⟩
      obtain ⟨records, tiles⟩ := tiled valid
      obtain rfl := ofTiles tiles
      have agreed := (agreedRecords_iff records files).mpr ⟨valid, rights, length, isFiles⟩
      refine ⟨by omega, flags, whole, records, tiles, agreed, fun more => ?_⟩
      exact (peer_iff agreed.credentials peer).mp (trusted more)
    · rintro ⟨isCount, agreed⟩
      obtain ⟨records, tiles, agreedRecords, peerRecord⟩ := agreed.records
      obtain rfl := ofTiles tiles
      obtain ⟨valid, rights, length, isFiles⟩ := (agreedRecords_iff records files).mp agreedRecords
      exact ⟨fun more => (peer_iff agreedRecords.credentials peer).mpr (peerRecord more),
        agreed.untruncated, agreed.whole, rights, valid, length, by omega, isFiles⟩

end AiSwitcher.HelperProtocol
