/-
This file embeds the request of the privileged helper
(`apps/host/crates/helper/src/protocol.rs`) and proves that its binding identifies it: every
field but the binding itself goes into the digest behind its length, together with the challenge
of the session. How the platform decodes and encodes JSON and what SHA-256 computes are
parameters; the proofs rely on nothing but that they do not confuse the requests at hand.
-/

import AiSwitcher.Host.Registry
import AiSwitcher.Library.Control
import AiSwitcher.Library.Framed
import AiSwitcher.Library.Utf8

namespace AiSwitcher.HelperProtocol

open Host (DriveIdentity InstalledImage bytesOf hex hexDigit)
open Utf8 (Bytes)

def MAX_REQUEST_BYTES : Nat := 4096

/-! ### Requests -/

structure AssetIdentity where
  id : UInt64
  name : String
  size : UInt64
  revision : String
  deriving DecidableEq

structure PublishedRelease where
  id : UInt64
  tag : String
  publishedAt : UInt64
  draft : Bool
  prerelease : Bool
  assets : List AssetIdentity
  deriving DecidableEq

inductive Operation where
  | createLayout
  | replaceBase
  | resetPersist
  deriving DecidableEq

structure Request where
  version : UInt32
  operation : Operation
  planDigest : String
  channelBinding : String
  ticket : String
  release : PublishedRelease
  driveIdentity : DriveIdentity
  installedImage : Option InstalledImage
  deviceIdentity : String
  typedConfirmation : String
  confirmationDeadlineBootNs : UInt64
  deriving DecidableEq

inductive ProtocolError where
  | frame
  | request
  | expiredOrReplayed
  | untrustedPeer
  | packageTrustUnavailable
  | transport
  deriving DecidableEq

/-- A vector of bytes; none is longer than the address space allows. -/
abbrev ByteVec := { bytes : Bytes // bytes.length < 2 ^ 63 }

/-- What the platform computes: `serde_json::from_slice` of a request, `serde_json::to_vec` of its
structured fields, or nothing where that fails, and SHA-256. -/
structure Codec where
  fromSlice : Bytes → Option Request
  release : PublishedRelease → ByteVec
  driveIdentity : DriveIdentity → ByteVec
  installedImage : Option InstalledImage → ByteVec
  sha256 : Bytes → Vector UInt8 32

/-! ### Decoding -/

/-- Sixty-four lower-case hexadecimal digits. -/
def isDigest (value : String) : Bool :=
  (bytesOf value).length = 64 &&
    (bytesOf value).all fun byte => (48 ≤ byte && byte ≤ 57) || (97 ≤ byte && byte ≤ 102)

def isWithin (value : String) (limit : Nat) : Bool :=
  !(bytesOf value).isEmpty && (bytesOf value).length ≤ limit

def isAcceptable (request : Request) : Bool :=
  request.version = 1 && request.driveIdentity.isValid &&
    (decide (request.operation ≠ .createLayout) == request.installedImage.isSome) &&
    (request.installedImage.all fun installed =>
      installed.isValid && installed.identity = request.driveIdentity) &&
    isDigest request.planDigest && isDigest request.channelBinding && isDigest request.ticket &&
    request.confirmationDeadlineBootNs ≠ 0 && isWithin request.deviceIdentity 128 &&
    isWithin request.typedConfirmation 128

/-- A frame is a length in four bytes, the highest first, and as many bytes. -/
def decodeFrame (codec : Codec) : Bytes → Except ProtocolError Request
  | first :: second :: third :: fourth :: body =>
      let length := ((first.toNat * 256 + second.toNat) * 256 + third.toNat) * 256 + fourth.toNat
      if length = 0 ∨ MAX_REQUEST_BYTES < length ∨ body.length ≠ length then .error .frame
      else
        match codec.fromSlice body with
        | none => .error .request
        | some request => if isAcceptable request then .ok request else .error .request
  | _ => .error .frame

/-! ### The binding -/

def Operation.code : Operation → Nat
  | .createLayout => 1
  | .replaceBase => 2
  | .resetPersist => 3

/-- The fields of the binding in their order. -/
def bindingFields (codec : Codec) (challenge : Vector UInt8 32) (request : Request) : List Bytes :=
  [bytesOf "AIS-HOST-HELPER-OPERATION-V1", challenge.toList,
    Framed.bigEndian 4 request.version.toNat, Framed.bigEndian 4 request.operation.code,
    bytesOf request.planDigest, bytesOf request.ticket,
    Framed.bigEndian 8 request.confirmationDeadlineBootNs.toNat, bytesOf request.deviceIdentity,
    bytesOf request.typedConfirmation, codec.release request.release,
    codec.driveIdentity request.driveIdentity, codec.installedImage request.installedImage]

/-- Every field behind its length as a `u64`. -/
def bindingBytes (codec : Codec) (challenge : Vector UInt8 32) (request : Request) : Bytes :=
  (bindingFields codec challenge request).flatMap (Framed.field 8)

def operationBinding (codec : Codec) (challenge : Vector UInt8 32) (request : Request) :
    Vector UInt8 32 :=
  codec.sha256 (bindingBytes codec challenge request)

/-! ### Authentication -/

/-- What the transport hands over once it trusts the peer: the challenge it sent, the frame that
came back, and the time since boot. -/
structure Session where
  challenge : Vector UInt8 32
  frame : Bytes
  now : Except ProtocolError Nat

structure Authenticated where
  requestBinding : Vector UInt8 32
  request : Request
  deriving DecidableEq

/-- The part of `authenticate_one` that all platforms share; the checks of the peer before it
decide `session`. -/
def authenticateOne (codec : Codec) (session : Except ProtocolError Session) :
    Except ProtocolError Authenticated := do
  let session ← session
  let request ← decodeFrame codec session.frame
  let now ← session.now
  let deadline := request.confirmationDeadlineBootNs.toNat
  if deadline ≤ now ∨ 120000000000 < deadline - now then .error .expiredOrReplayed
  else
    let expected := operationBinding codec session.challenge request
    if hex expected.toList ≠ request.channelBinding then .error .expiredOrReplayed
    else return ⟨expected, request⟩

/-! ### Equal bindings -/

theorem hexDigit_injective {first second : Nat} (firstSmall : first < 16) (secondSmall : second < 16)
    (same : hexDigit first = hexDigit second) : first = second := by
  have all : ∀ first < 16, ∀ second < 16, hexDigit first = hexDigit second → first = second := by
    decide
  exact all first firstSmall second secondSmall same

theorem hex_injective {first second : Bytes} (same : hex first = hex second) : first = second := by
  rw [hex, hex, String.ofList_inj] at same
  induction first generalizing second with
  | nil =>
    cases second with
    | nil => rfl
    | cons _ _ => cases same
  | cons byte rest inductionHypothesis =>
    cases second with
    | nil => cases same
    | cons other others =>
      rw [List.flatMap_cons, List.flatMap_cons] at same
      obtain ⟨digits, rests⟩ := List.append_inj same rfl
      obtain ⟨high, low⟩ := List.cons.inj digits
      have highSame := hexDigit_injective (Nat.div_lt_of_lt_mul byte.toNat_lt)
        (Nat.div_lt_of_lt_mul other.toNat_lt) high
      have lowSame := hexDigit_injective (Nat.mod_lt _ (by decide)) (Nat.mod_lt _ (by decide))
        (List.head_eq_of_cons_eq low)
      have byteSame : byte = other := UInt8.toNat_inj.mp (by omega)
      rw [byteSame, inductionHypothesis rests]

theorem bytesOf_injective {first second : String} (same : bytesOf first = bytesOf second) :
    first = second :=
  String.toList_injective (Utf8.encode_injective same)

theorem operation_eq_of_code {first second : Operation} (same : first.code = second.code) :
    first = second := by
  cases first <;> cases second <;> first | rfl | cases same

/-- What decoding asks of the lengths of a request's texts. -/
structure ShortTexts (request : Request) : Prop where
  planDigest : (bytesOf request.planDigest).length = 64
  ticket : (bytesOf request.ticket).length = 64
  deviceIdentity : (bytesOf request.deviceIdentity).length ≤ 128
  typedConfirmation : (bytesOf request.typedConfirmation).length ≤ 128

theorem length_of_isDigest {value : String} (digest : isDigest value = true) :
    (bytesOf value).length = 64 := by
  rw [isDigest, Bool.and_eq_true, decide_eq_true_iff] at digest
  exact digest.1

theorem length_of_isWithin {value : String} {limit : Nat} (within : isWithin value limit = true) :
    (bytesOf value).length ≤ limit := by
  rw [isWithin, Bool.and_eq_true, decide_eq_true_iff] at within
  exact within.2

theorem acceptable_of_decodeFrame {codec : Codec} {frame : Bytes} {request : Request}
    (decoded : decodeFrame codec frame = .ok request) : isAcceptable request = true := by
  unfold decodeFrame at decoded
  split at decoded
  · dsimp only at decoded
    split at decoded
    · cases decoded
    split at decoded
    · cases decoded
    · split at decoded
      · next acceptable =>
        cases decoded
        exact acceptable
      · cases decoded
  · cases decoded

theorem shortTexts_of_decodeFrame {codec : Codec} {frame : Bytes} {request : Request}
    (decoded : decodeFrame codec frame = .ok request) : ShortTexts request := by
  have acceptable := acceptable_of_decodeFrame decoded
  simp only [isAcceptable, Bool.and_eq_true] at acceptable
  obtain ⟨⟨⟨⟨⟨⟨-, plan⟩, -⟩, ticket⟩, -⟩, device⟩, typed⟩ := acceptable
  exact ⟨length_of_isDigest plan, length_of_isDigest ticket, length_of_isWithin device,
    length_of_isWithin typed⟩

theorem bindingFields_fit (codec : Codec) (challenge : Vector UInt8 32) {request : Request}
    (short : ShortTexts request) :
    ∀ value ∈ bindingFields codec challenge request, value.length < 256 ^ 8 := by
  have wide {length limit : Nat} (small : length ≤ limit) (low : limit < 2 ^ 63) :
      length < 256 ^ 8 := by omega
  simp only [bindingFields, List.forall_mem_cons]
  refine ⟨by decide, wide (le_of_eq challenge.length_toList) (by decide),
    wide (le_of_eq (Framed.length_bigEndian 4 _)) (by decide),
    wide (le_of_eq (Framed.length_bigEndian 4 _)) (by decide),
    wide (le_of_eq short.planDigest) (by decide), wide (le_of_eq short.ticket) (by decide),
    wide (le_of_eq (Framed.length_bigEndian 8 _)) (by decide),
    wide short.deviceIdentity (by decide), wide short.typedConfirmation (by decide), ?_, ?_, ?_,
    List.forall_mem_nil _⟩
  · exact Nat.lt_trans (codec.release _).2 (by decide)
  · exact Nat.lt_trans (codec.driveIdentity _).2 (by decide)
  · exact Nat.lt_trans (codec.installedImage _).2 (by decide)

/-- Equal bytes under the digest have equal fields. -/
theorem bindingFields_of_bytes {codec : Codec} {firstChallenge secondChallenge : Vector UInt8 32}
    {first second : Request} (firstShort : ShortTexts first) (secondShort : ShortTexts second)
    (same : bindingBytes codec firstChallenge first = bindingBytes codec secondChallenge second) :
    bindingFields codec firstChallenge first = bindingFields codec secondChallenge second :=
  Framed.flatMap_field_injective rfl (bindingFields_fit codec firstChallenge firstShort)
    (bindingFields_fit codec secondChallenge secondShort) same

/-- The digest and the encodings do not confuse two requests, each with its challenge. -/
structure Distinguishes (codec : Codec) (first second : Vector UInt8 32 × Request) : Prop where
  sha256 : codec.sha256 (bindingBytes codec first.1 first.2) =
      codec.sha256 (bindingBytes codec second.1 second.2) →
    bindingBytes codec first.1 first.2 = bindingBytes codec second.1 second.2
  release : codec.release first.2.release = codec.release second.2.release →
    first.2.release = second.2.release
  driveIdentity : codec.driveIdentity first.2.driveIdentity =
      codec.driveIdentity second.2.driveIdentity →
    first.2.driveIdentity = second.2.driveIdentity
  installedImage : codec.installedImage first.2.installedImage =
      codec.installedImage second.2.installedImage →
    first.2.installedImage = second.2.installedImage

theorem Distinguishes.self (codec : Codec) (request : Vector UInt8 32 × Request) :
    Distinguishes codec request request :=
  ⟨fun _ => rfl, fun _ => rfl, fun _ => rfl, fun _ => rfl⟩

theorem eq_of_bindingFields {codec : Codec} {challenge : Vector UInt8 32} {first second : Request}
    (distinguishes : Distinguishes codec (challenge, first) (challenge, second))
    (same : bindingFields codec challenge first = bindingFields codec challenge second) :
    { first with channelBinding := second.channelBinding } = second := by
  simp only [bindingFields, List.cons.injEq, and_true, true_and] at same
  obtain ⟨version, operation, plan, ticket, deadline, device, typed, release, drive, installed⟩ :=
    same
  have versionSame : first.version = second.version :=
    UInt32.toNat_inj.mp (Framed.bigEndian_injective first.version.toNat_lt
      second.version.toNat_lt version)
  have operationSame : first.operation = second.operation := by
    refine operation_eq_of_code (Framed.bigEndian_injective ?_ ?_ operation)
    · cases first.operation <;> decide
    · cases second.operation <;> decide
  have deadlineSame : first.confirmationDeadlineBootNs = second.confirmationDeadlineBootNs :=
    UInt64.toNat_inj.mp (Framed.bigEndian_injective first.confirmationDeadlineBootNs.toNat_lt
      second.confirmationDeadlineBootNs.toNat_lt deadline)
  have releaseSame := distinguishes.release (Subtype.ext release)
  have driveSame := distinguishes.driveIdentity (Subtype.ext drive)
  have installedSame := distinguishes.installedImage (Subtype.ext installed)
  cases first
  cases second
  dsimp only at *
  rw [versionSame, operationSame, deadlineSame, releaseSame, driveSame, installedSame,
    bytesOf_injective plan, bytesOf_injective ticket, bytesOf_injective device,
    bytesOf_injective typed]

theorem authenticateOne_eq_ok {codec : Codec} {session : Session} {result : Authenticated}
    (accepted : authenticateOne codec (.ok session) = .ok result) :
    decodeFrame codec session.frame = .ok result.request ∧
      hex (operationBinding codec session.challenge result.request).toList =
        result.request.channelBinding := by
  simp only [authenticateOne, JavaScript.ok_bind, JavaScript.bind_eq_ok] at accepted
  obtain ⟨request, decoded, now, -, accepted⟩ := accepted
  split at accepted
  · cases accepted
  split at accepted
  · cases accepted
  · next same =>
    cases accepted
    exact ⟨decoded, not_not.mp same⟩

/-- The binding identifies the request, and a request belongs to one challenge: requests with one
binding agree in every field but the binding they carry, and a request that is accepted in two
sessions was challenged alike in both. -/
theorem operationBinding_identifies (codec : Codec) :
    (∀ (challenge : Vector UInt8 32) (first second : Request) (firstFrame secondFrame : Bytes),
      decodeFrame codec firstFrame = .ok first → decodeFrame codec secondFrame = .ok second →
      Distinguishes codec (challenge, first) (challenge, second) →
      operationBinding codec challenge first = operationBinding codec challenge second →
      { first with channelBinding := second.channelBinding } = second) ∧
    (∀ (firstSession secondSession : Session) (first second : Authenticated),
      authenticateOne codec (.ok firstSession) = .ok first →
      authenticateOne codec (.ok secondSession) = .ok second →
      first.request = second.request →
      Distinguishes codec (firstSession.challenge, first.request)
        (secondSession.challenge, second.request) →
      firstSession.challenge = secondSession.challenge) := by
  refine ⟨fun challenge first second firstFrame secondFrame firstDecoded secondDecoded
    distinguishes same => ?_, fun firstSession secondSession first second firstAccepted
    secondAccepted sameRequest distinguishes => ?_⟩
  · refine eq_of_bindingFields distinguishes (bindingFields_of_bytes ?_ ?_
      (distinguishes.sha256 same))
    · exact shortTexts_of_decodeFrame firstDecoded
    · exact shortTexts_of_decodeFrame secondDecoded
  · obtain ⟨firstDecoded, firstBinding⟩ := authenticateOne_eq_ok firstAccepted
    obtain ⟨secondDecoded, secondBinding⟩ := authenticateOne_eq_ok secondAccepted
    rw [← sameRequest, ← firstBinding] at secondBinding
    have digests := Vector.toList_inj.mp (hex_injective secondBinding)
    rw [sameRequest] at digests
    have fields := bindingFields_of_bytes (shortTexts_of_decodeFrame firstDecoded)
      (shortTexts_of_decodeFrame secondDecoded)
      (distinguishes.sha256 (by dsimp only; rw [sameRequest]; exact digests.symm))
    simp only [bindingFields, List.cons.injEq, true_and] at fields
    exact Vector.toList_inj.mp fields.1

/-! ### A request of a session -/

theorem decodeFrame_behind {codec : Codec} {first second third fourth : UInt8} {body : Bytes}
    {request : Request} (length : body.length =
      ((first.toNat * 256 + second.toNat) * 256 + third.toNat) * 256 + fourth.toNat)
    (fits : 0 < body.length ∧ body.length ≤ MAX_REQUEST_BYTES)
    (reads : codec.fromSlice body = some request) (acceptable : isAcceptable request = true) :
    decodeFrame codec (first :: second :: third :: fourth :: body) = .ok request := by
  rw [decodeFrame, if_neg (by omega), reads]
  exact if_pos acceptable

theorem authenticateOne_of_binding {codec : Codec} {session : Session} {request : Request}
    {now : Nat} (decoded : decodeFrame codec session.frame = .ok request)
    (clock : session.now = .ok now)
    (inTime : now < request.confirmationDeadlineBootNs.toNat ∧
      request.confirmationDeadlineBootNs.toNat - now ≤ 120000000000)
    (binding : hex (operationBinding codec session.challenge request).toList =
      request.channelBinding) :
    authenticateOne codec (.ok session) =
      .ok ⟨operationBinding codec session.challenge request, request⟩ := by
  simp only [authenticateOne, JavaScript.ok_bind, decoded, clock]
  rw [if_neg (by omega), if_neg (not_not.mpr binding)]
  rfl

def sampleChallenge : Vector UInt8 32 := .replicate 32 9

def requestPartitions : Array String :=
  #["20000000-0000-4000-8000-000000000000", "30000000-0000-4000-8000-000000000000",
    "40000000-0000-4000-8000-000000000000", "50000000-0000-4000-8000-000000000000",
    "60000000-0000-4000-8000-000000000000"]

theorem size_requestPartitions : requestPartitions.size = 5 := rfl

def sampleRequest : Request where
  version := 1
  operation := .createLayout
  planDigest := "aaaaaaaaaaaaaaaaaaaaaaaaaaaaaaaaaaaaaaaaaaaaaaaaaaaaaaaaaaaaaaaa"
  channelBinding := "448acf038884dacedfe519e7d72ce2d0e4f59b2af7ea753b1adfb60848d8f786"
  ticket := "cccccccccccccccccccccccccccccccccccccccccccccccccccccccccccccccc"
  release := ⟨1, "synthetic-v1", 1, false, false, []⟩
  driveIdentity :=
    ⟨"10000000-0000-4000-8000-000000000000", ⟨requestPartitions, size_requestPartitions⟩⟩
  installedImage := none
  deviceIdentity := "synthetic-device"
  typedConfirmation := "SYNTHETIC_FIXTURE_DEVICE"
  confirmationDeadlineBootNs := 120

def sampleRelease : String :=
  "\x7b\"id\":1,\"tag\":\"synthetic-v1\",\"publishedAt\":1,\"draft\":false," ++
    "\"prerelease\":false,\"assets\":[]\x7d"

def sampleDrive : String :=
  "\x7b\"disk\":\"10000000-0000-4000-8000-000000000000\",\"partitions\":[" ++
    "\"20000000-0000-4000-8000-000000000000\",\"30000000-0000-4000-8000-000000000000\"," ++
    "\"40000000-0000-4000-8000-000000000000\",\"50000000-0000-4000-8000-000000000000\"," ++
    "\"60000000-0000-4000-8000-000000000000\"]\x7d"

def sampleText : String :=
  "\x7b\"version\":1,\"operation\":\"createLayout\"," ++
    "\"planDigest\":\"aaaaaaaaaaaaaaaaaaaaaaaaaaaaaaaaaaaaaaaaaaaaaaaaaaaaaaaaaaaaaaaa\"," ++
    "\"channelBinding\":\"448acf038884dacedfe519e7d72ce2d0e4f59b2af7ea753b1adfb60848d8f786\"," ++
    "\"ticket\":\"cccccccccccccccccccccccccccccccccccccccccccccccccccccccccccccccc\"," ++
    "\"release\":" ++ sampleRelease ++ ",\"driveIdentity\":" ++ sampleDrive ++
    ",\"installedImage\":null,\"deviceIdentity\":\"synthetic-device\"," ++
    "\"typedConfirmation\":\"SYNTHETIC_FIXTURE_DEVICE\",\"confirmationDeadlineBootNs\":120\x7d"

/-- The frame of the sample: its text behind its length. -/
def sampleFrame : Bytes := 0 :: 0 :: 3 :: 25 :: bytesOf sampleText

theorem length_bytesOf (text : String) : (bytesOf text).length = text.utf8ByteSize := by
  rw [← String.size_toByteArray, ← String.utf8Encode_toList, List.utf8Encode,
    List.size_toByteArray]
  rfl

def vecOf (text : String) (short : text.utf8ByteSize < 2 ^ 63) : ByteVec :=
  ⟨bytesOf text, (length_bytesOf text).trans_lt short⟩

/-- What the platform computes on the sample. -/
def sampleCodec : Codec where
  fromSlice _ := some sampleRequest
  release _ := vecOf sampleRelease (by decide +kernel)
  driveIdentity _ := vecOf sampleDrive (by decide +kernel)
  installedImage _ := vecOf "null" (by decide +kernel)
  sha256 _ := #v[68, 138, 207, 3, 136, 132, 218, 206, 223, 229, 25, 231, 215, 44, 226, 208, 228, 245,
    155, 42, 247, 234, 117, 59, 26, 223, 182, 8, 72, 216, 247, 134]

def sampleResult : Authenticated where
  requestBinding := operationBinding sampleCodec sampleChallenge sampleRequest
  request := sampleRequest

theorem length_sampleText : (bytesOf sampleText).length = 793 := by
  rw [length_bytesOf]
  decide +kernel

theorem acceptable_sample : isAcceptable sampleRequest = true := by decide +kernel

theorem decodeFrame_sample : decodeFrame sampleCodec sampleFrame = .ok sampleRequest :=
  decodeFrame_behind length_sampleText (by rw [length_sampleText]; decide) rfl acceptable_sample

def sampleSession : Session := ⟨sampleChallenge, sampleFrame, .ok 0⟩

theorem authenticateOne_sample :
    authenticateOne sampleCodec (.ok sampleSession) = .ok sampleResult := by
  have binding : hex (operationBinding sampleCodec sampleChallenge sampleRequest).toList =
      sampleRequest.channelBinding := by decide +kernel
  exact authenticateOne_of_binding decodeFrame_sample rfl (by decide) binding

theorem operationBinding_identifies_sample :
    { sampleRequest with channelBinding := sampleRequest.channelBinding } = sampleRequest ∧
      sampleSession.challenge = sampleSession.challenge :=
  ⟨(operationBinding_identifies sampleCodec).1 sampleChallenge sampleRequest sampleRequest
      sampleFrame sampleFrame decodeFrame_sample decodeFrame_sample (.self _ _) rfl,
    (operationBinding_identifies sampleCodec).2 sampleSession sampleSession sampleResult
      sampleResult authenticateOne_sample authenticateOne_sample rfl (.self _ _)⟩

end AiSwitcher.HelperProtocol
