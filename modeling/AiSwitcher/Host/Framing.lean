/-
This file proves what the framing of the host protocol keeps under any chunking. A read depends
only on the bytes before the first empty chunk, for an empty chunk is taken for the end of the
stream. So a message is accepted exactly if those bytes are the message; that is right unless
bytes follow the empty chunk and either the message or the whole stream ends there.
-/

import AiSwitcher.Host.Protocol

namespace AiSwitcher.HostProtocol

open JavaScript JsonText Utf8

/-! ### Bytes that a reader can still read -/

/-- The bytes before the first empty chunk. -/
def clearBytes (chunks : List Bytes) : Bytes :=
  (chunks.takeWhile fun chunk => !chunk.isEmpty).flatten

/-- The bytes a reader gives before it takes the stream to have ended. -/
def Reader.clear (reader : Reader) : Bytes := reader.pending ++ clearBytes reader.chunks

/-- All bytes that are left. -/
def Reader.bytes (reader : Reader) : Bytes := reader.pending ++ reader.chunks.flatten

theorem clearBytes_initial (chunks : List Bytes) : clearBytes chunks <+: chunks.flatten := by
  refine ⟨(chunks.dropWhile fun chunk => !chunk.isEmpty).flatten, ?_⟩
  rw [clearBytes, ← List.flatten_append, List.takeWhile_append_dropWhile]

theorem clearBytes_cons {chunk : Bytes} (nonempty : chunk.isEmpty = false) (rest : List Bytes) :
    clearBytes (chunk :: rest) = chunk ++ clearBytes rest := by
  rw [clearBytes, List.takeWhile_cons_of_pos (by rw [nonempty]; rfl), List.flatten_cons, clearBytes]

theorem clearBytes_empty {chunk : Bytes} (empty : chunk.isEmpty = true) (rest : List Bytes) :
    clearBytes (chunk :: rest) = [] := by
  rw [clearBytes, List.takeWhile_cons_of_neg (by rw [empty]; exact Bool.false_ne_true)]
  rfl

/-- Reading goes through the clear bytes in order; it fails exactly if they do not suffice. -/
theorem readChunks_cases (chunks : List Bytes) : ∀ (missing : Nat) (chunk : Bytes),
    ((chunk ++ clearBytes chunks).length < missing ∧
        ∃ error, readChunks missing chunk chunks = .error error) ∨
      ∃ output reader, readChunks missing chunk chunks = .ok (output, reader) ∧
        output.length = missing ∧ chunk ++ clearBytes chunks = output ++ reader.clear ∧
        chunk ++ chunks.flatten = output ++ reader.bytes := by
  induction chunks with
  | nil =>
    intro missing chunk
    rw [readChunks]
    by_cases enough : missing ≤ chunk.length
    · rw [if_pos enough]
      refine .inr ⟨_, _, rfl, List.length_take_of_le enough, ?_, ?_⟩
      · rw [Reader.clear, ← List.append_assoc, List.take_append_drop]
      · rw [Reader.bytes, ← List.append_assoc, List.take_append_drop]
    · rw [if_neg enough]
      refine .inl ⟨?_, _, rfl⟩
      simp only [clearBytes, List.takeWhile_nil, List.flatten_nil, List.append_nil]
      omega
  | cons next rest inductionHypothesis =>
    intro missing chunk
    rw [readChunks]
    by_cases enough : missing ≤ chunk.length
    · rw [if_pos enough]
      refine .inr ⟨_, _, rfl, List.length_take_of_le enough, ?_, ?_⟩
      · rw [Reader.clear, ← List.append_assoc, List.take_append_drop]
      · rw [Reader.bytes, ← List.append_assoc, List.take_append_drop]
    rw [if_neg enough]
    cases empty : next.isEmpty with
    | true =>
      rw [if_pos rfl]
      refine .inl ⟨?_, _, rfl⟩
      rw [clearBytes_empty empty, List.append_nil]
      omega
    | false =>
      rw [if_neg Bool.false_ne_true, clearBytes_cons empty]
      rcases inductionHypothesis (missing - chunk.length) next with
        ⟨few, error, fails⟩ | ⟨output, reader, reads, length, sameClear, same⟩
      · rw [fails]
        refine .inl ⟨?_, error, rfl⟩
        rw [List.length_append]
        omega
      · rw [reads]
        refine .inr ⟨chunk ++ output, reader, rfl, ?_, ?_, ?_⟩
        · rw [List.length_append]
          omega
        · rw [sameClear, List.append_assoc]
        · rw [List.flatten_cons, same, List.append_assoc]

theorem readExact_cases {length : Nat} (small : length ≤ MAX_HOST_PAYLOAD_BYTES)
    (reader : Reader) :
    (reader.clear.length < length ∧ ∃ error, readExact reader length = .error error) ∨
      ∃ output after, readExact reader length = .ok (output, after) ∧ output.length = length ∧
        reader.clear = output ++ after.clear ∧ reader.bytes = output ++ after.bytes := by
  have reads : readExact reader length = readChunks length reader.pending reader.chunks := by
    rw [readExact, (ensure_eq_ok _ _ ()).mpr (decide_eq_true small)]
    rfl
  rw [reads]
  exact readChunks_cases reader.chunks length reader.pending

/-- What was read stands at the front of the bytes, and what is left after it. -/
theorem readExact_bytes {reader after : Reader} {length : Nat} {output : Bytes}
    (reads : readExact reader length = .ok (output, after)) :
    reader.bytes = output ++ after.bytes ∧ output.length = length := by
  rw [readExact, ensure_bind_eq_ok] at reads
  obtain ⟨small, reads⟩ := reads
  rcases readChunks_cases reader.chunks length reader.pending with
    ⟨-, error, fails⟩ | ⟨other, left, found, isLength, -, same⟩
  · rw [fails] at reads
    cases reads
  · rw [found] at reads
    cases reads
    exact ⟨same, isLength⟩

/-! ### Lengths -/

theorem length_lengthPrefix (length : Nat) : (lengthPrefix length).length = 4 := rfl

theorem prefixLength_lengthPrefix {length : Nat} (small : length < 0x100000000) :
    prefixLength (lengthPrefix length) = length := by
  simp only [lengthPrefix, prefixLength, List.foldl_cons, List.foldl_nil, UInt8.toNat_ofNat']
  omega

/-- Four bytes are the prefix of the length they spell. -/
theorem lengthPrefix_prefixLength {bytes : Bytes} (four : bytes.length = 4) :
    lengthPrefix (prefixLength bytes) = bytes := by
  obtain ⟨first, second, third, fourth, rfl⟩ := List.length_eq_four.mp four
  have firstSmall := first.toNat_lt
  have secondSmall := second.toNat_lt
  have thirdSmall := third.toNat_lt
  have fourthSmall := fourth.toNat_lt
  simp only [lengthPrefix, prefixLength, List.foldl_cons, List.foldl_nil, List.cons.injEq, and_true,
    ← UInt8.toNat_inj, UInt8.toNat_ofNat']
  omega

/-! ### Reads of a message -/

/-- One goes on where the other ends. -/
def Comparable (first second : Bytes) : Prop := first <+: second ∨ second <+: first

theorem Comparable.of_append {output segment left rest : Bytes}
    (sameLength : output.length = segment.length)
    (comparable : Comparable (output ++ left) (segment ++ rest)) :
    output = segment ∧ Comparable left rest := by
  rcases comparable with ⟨others, same⟩ | ⟨others, same⟩
  · rw [List.append_assoc] at same
    obtain ⟨sameSegment, sameRest⟩ := List.append_inj same sameLength
    exact ⟨sameSegment, .inl ⟨others, sameRest⟩⟩
  · rw [List.append_assoc] at same
    obtain ⟨sameSegment, sameRest⟩ := List.append_inj same sameLength.symm
    exact ⟨sameSegment.symm, .inr ⟨others, sameRest⟩⟩

/-- Of a stream that agrees with `segment` and what follows it, the read takes `segment` and
gives `result`; it fails if the stream ends before. -/
def Gives {Result : Type} (read : Reader → Except String (Result × Reader)) (segment : Bytes)
    (result : Result) : Prop :=
  ∀ reader rest, Comparable reader.clear (segment ++ rest) →
    (¬ segment <+: reader.clear ∧ ∃ error, read reader = .error error) ∨
      ∃ after, read reader = .ok (result, after) ∧ reader.clear = segment ++ after.clear ∧
        Comparable after.clear rest

theorem Gives.done {Result : Type} (result : Result) :
    Gives (fun reader => .ok (result, reader)) [] result :=
  fun reader _ comparable => .inr ⟨reader, rfl, rfl, comparable⟩

theorem Gives.bind {First Second : Type} {read : Reader → Except String (First × Reader)}
    {next : First × Reader → Except String (Second × Reader)} {segment others : Bytes}
    {first : First} {second : Second} (gives : Gives read segment first)
    (goesOn : Gives (fun reader => next (first, reader)) others second) :
    Gives (fun reader => read reader >>= next) (segment ++ others) second := by
  intro reader rest comparable
  rw [List.append_assoc] at comparable
  rcases gives reader (others ++ rest) comparable with
    ⟨few, error, fails⟩ | ⟨between, reads, clear, left⟩
  · refine .inl ⟨fun enough => few ((List.prefix_append segment others).trans enough), error, ?_⟩
    show (read reader >>= next) = _
    rw [fails]
    rfl
  have continues : (read reader >>= next) = next (first, between) := by
    rw [reads]
    rfl
  rcases goesOn between rest left with ⟨few, error, fails⟩ | ⟨after, reads', clear', left'⟩
  · refine .inl ⟨fun enough => few ?_, error, continues.trans fails⟩
    rw [clear] at enough
    exact (List.prefix_append_right_inj segment).mp enough
  · refine .inr ⟨after, continues.trans reads', ?_, left'⟩
    rw [clear, clear', List.append_assoc]

/-- `Gives.bind` for what reads nothing more. -/
theorem Gives.map {First Second : Type} {read : Reader → Except String (First × Reader)}
    {next : First × Reader → Except String (Second × Reader)} {segment : Bytes}
    {first : First} {second : Second} (gives : Gives read segment first)
    (goesOn : Gives (fun reader => next (first, reader)) [] second) :
    Gives (fun reader => read reader >>= next) segment second := by
  have whole := gives.bind goesOn
  rwa [List.append_nil] at whole

theorem Gives.of_ensure {Result : Type} {read : Reader → Except String (Result × Reader)}
    {segment : Bytes} {result : Result} {condition : Bool} (holds : condition = true)
    (message : String) (gives : Gives read segment result) :
    Gives (fun reader => ensure condition message >>= fun _ => read reader) segment result := by
  rw [holds]
  exact gives

theorem readExact_gives {segment : Bytes} (small : segment.length ≤ MAX_HOST_PAYLOAD_BYTES) :
    Gives (fun reader => readExact reader segment.length) segment segment := by
  intro reader rest comparable
  rcases readExact_cases small reader with
    ⟨few, fails⟩ | ⟨output, after, reads, isLength, clear, -⟩
  · exact .inl ⟨fun enough => absurd enough.length_le (by omega), fails⟩
  · rw [clear] at comparable
    obtain ⟨rfl, left⟩ := Comparable.of_append isLength comparable
    exact .inr ⟨after, reads, clear, left⟩

theorem readPayload_gives {payload : Bytes} (small : payload.length ≤ MAX_HOST_PAYLOAD_BYTES) :
    Gives (fun reader => readPayload reader payload.length) payload payload := by
  by_cases empty : payload.length = 0
  · rw [List.length_eq_zero_iff.mp empty]
    exact Gives.done []
  · simp only [readPayload, if_neg empty]
    exact readExact_gives small

/-- The frame of `body`. -/
def frameOf (body : Bytes) : Bytes := lengthPrefix body.length ++ body

theorem readJsonFrame_gives {numerals : Numerals} {body : Bytes} {value : Value}
    (small : body.length ≤ MAX_HEADER_BYTES)
    (denotes : (decodeFatal body).bind (parse numerals.read) = some value) :
    Gives (readJsonFrame numerals) (frameOf body) value := by
  have length : prefixLength (lengthPrefix body.length) = body.length :=
    prefixLength_lengthPrefix (Nat.lt_of_le_of_lt small (by decide))
  refine Gives.bind (readExact_gives (Nat.le_of_lt (by decide : 4 < MAX_HOST_PAYLOAD_BYTES))) ?_
  refine Gives.of_ensure (by rw [length]; exact decide_eq_true small) _ ?_
  rw [length]
  refine Gives.map (readExact_gives (small.trans (by decide))) ?_
  dsimp only
  rw [denotes]
  exact Gives.done value

/-! ### Values that are read back -/

/-- The text of an object begins with a brace, so it has no byte order mark. -/
theorem decodeFatal_stringify {numerals : Numerals} {members : List (Units × Value)}
    (exact : Exact numerals.read numerals.write (.obj members)) :
    (decodeFatal (encode (JsonText.stringify numerals.write (.obj members)))).bind (parse numerals.read) =
      some (.obj members) := by
  have unmarked : ¬ byteOrderMark <+: encode (JsonText.stringify numerals.write (.obj members)) := by
    rw [JsonText.stringify]
    rintro ⟨rest, same⟩
    cases same
  rw [decodeFatal_encode unmarked]
  exact parse_stringify numerals.read numerals.write exact

theorem encodeJsonFrame_eq_ok {numerals : Numerals} {value : Value} {frame : Bytes} :
    encodeJsonFrame numerals value = .ok frame ↔
      (encode (JsonText.stringify numerals.write value)).length ≤ MAX_HEADER_BYTES ∧
        frameOf (encode (JsonText.stringify numerals.write value)) = frame := by
  rw [encodeJsonFrame, ensure_bind_eq_ok, decide_eq_true_iff]
  exact and_congr_right fun _ => ⟨Except.ok.inj, congrArg Except.ok⟩

/-- Reading the frame of a header returns the header. -/
theorem readJsonFrame_of_encode {numerals : Numerals} {members : List (Units × Value)}
    {frame : Bytes} (exact : Exact numerals.read numerals.write (.obj members))
    (encoded : encodeJsonFrame numerals (.obj members) = .ok frame) :
    Gives (readJsonFrame numerals) frame (.obj members) := by
  obtain ⟨small, rfl⟩ := encodeJsonFrame_eq_ok.mp encoded
  exact readJsonFrame_gives small (decodeFatal_stringify exact)

theorem payloadLength_lengthField {length : Nat} (small : length ≤ MAX_HOST_PAYLOAD_BYTES) :
    payloadLength (some (lengthField length)) = some length := by
  have whole : ((length : Rat)).den = 1 ∧ 0 ≤ ((length : Rat)).num ∧
      ((length : Rat)).num ≤ (MAX_HOST_PAYLOAD_BYTES : Int) :=
    ⟨rfl, Int.natCast_nonneg length, Int.ofNat_le.mpr small⟩
  rw [lengthField, payloadLength, if_pos whole]
  rfl

/-! ### Reads up to the end -/

/-- Of a stream that agrees with `message`, the read gives `result` if the message is all there
is, and fails otherwise. -/
def Accepts {Result : Type} (read : Reader → Except String Result) (message : Bytes)
    (result : Result) : Prop :=
  ∀ reader : Reader, Comparable reader.clear message →
    (reader.clear = message ∧ read reader = .ok result) ∨
      (reader.clear ≠ message ∧ ∃ error, read reader = .error error)

theorem clearBytes_eq_nil (chunks : List Bytes) :
    clearBytes chunks = [] ↔ (chunks.head?.getD []).isEmpty = true := by
  cases chunks with
  | nil => exact iff_of_true rfl rfl
  | cons chunk rest =>
    cases empty : chunk.isEmpty with
    | true => exact iff_of_true (clearBytes_empty empty rest) empty
    | false =>
      rw [clearBytes_cons empty, List.append_eq_nil_iff, ← List.isEmpty_iff, empty]
      exact iff_of_false (fun both => Bool.false_ne_true both.1) (by simp [empty])

theorem assertEnd_eq_ok (reader : Reader) : assertEnd reader = .ok () ↔ reader.clear = [] := by
  rw [assertEnd, ensure_bind_eq_ok, ensure_eq_ok, Reader.clear, List.append_eq_nil_iff,
    clearBytes_eq_nil, List.isEmpty_iff]

theorem Accepts.atEnd {Result : Type} (result : Result) :
    Accepts (fun reader => assertEnd reader >>= fun _ => .ok result) [] result := by
  intro reader _
  show (_ ∧ (assertEnd reader >>= _) = _) ∨ _ ∧ ∃ error, (assertEnd reader >>= _) = _
  cases ended : assertEnd reader with
  | ok _ => exact .inl ⟨(assertEnd_eq_ok reader).mp ended, rfl⟩
  | error error =>
    refine .inr ⟨fun nothing => ?_, error, rfl⟩
    rw [(assertEnd_eq_ok reader).mpr nothing] at ended
    cases ended

theorem Gives.accepts {First Second : Type} {read : Reader → Except String (First × Reader)}
    (next : First × Reader → Except String Second) {segment others : Bytes}
    {first : First} {second : Second} (gives : Gives read segment first)
    (goesOn : Accepts (fun reader => next (first, reader)) others second) :
    Accepts (fun reader => read reader >>= next) (segment ++ others) second := by
  intro reader comparable
  rcases gives reader others comparable with ⟨few, error, fails⟩ | ⟨after, reads, clear, left⟩
  · refine .inr ⟨fun same => few (same ▸ List.prefix_append segment others), error, ?_⟩
    show (read reader >>= next) = _
    rw [fails]
    rfl
  have continues : (read reader >>= next) = next (first, after) := by
    rw [reads]
    rfl
  rcases goesOn after left with ⟨same, reads'⟩ | ⟨different, error, fails⟩
  · exact .inl ⟨by rw [clear, same], continues.trans reads'⟩
  · refine .inr ⟨fun same => different ?_, error, continues.trans fails⟩
    rw [clear] at same
    exact List.append_cancel_left same

/-- `Gives.accepts` for the last read. -/
theorem Gives.acceptsAtEnd {First Result : Type} {read : Reader → Except String (First × Reader)}
    {segment : Bytes} {first : First} (gives : Gives read segment first)
    (finish : First → Result) :
    Accepts (fun reader => read reader >>= fun done =>
      assertEnd done.2 >>= fun _ => .ok (finish done.1)) segment (finish first) := by
  have whole := Gives.accepts (fun done => assertEnd done.2 >>= fun _ => .ok (finish done.1)) gives
    (Accepts.atEnd (finish first))
  rwa [List.append_nil] at whole

theorem Accepts.of_ensure {Result : Type} {read : Reader → Except String Result}
    {message : Bytes} {result : Result} {condition : Bool} (holds : condition = true)
    (text : String) (accepts : Accepts read message result) :
    Accepts (fun reader => ensure condition text >>= fun _ => read reader) message result := by
  rw [holds]
  exact accepts

/-- What fails whatever follows the first read. -/
theorem Gives.refuses {First Second : Type} {read : Reader → Except String (First × Reader)}
    {next : First × Reader → Except String Second} {segment : Bytes} {first : First}
    (gives : Gives read segment first)
    (refuses : ∀ after, ∃ error, next (first, after) = .error error)
    {reader : Reader} {rest : Bytes} (comparable : Comparable reader.clear (segment ++ rest)) :
    ∃ error, (read reader >>= next) = .error error := by
  rcases gives reader rest comparable with ⟨-, error, fails⟩ | ⟨after, reads, -, -⟩
  · exact ⟨error, by rw [fails]; rfl⟩
  · obtain ⟨error, fails⟩ := refuses after
    exact ⟨error, by rw [reads]; exact fails⟩

/-! ### Requests -/

theorem knownFields_requestFields (call : HostCall) :
    ((requestFields call).all fun field => field.1 ∈
      [key "version", key "operation", key "payloadBytes", key "preview"]) = true := by
  rw [requestFields]
  cases call.preview with
  | none => rfl
  | some preview => rfl

theorem version_requestFields (call : HostCall) :
    isVersion (member (requestFields call) (key "version")) = true := by
  rw [requestFields]
  cases call.preview with
  | none => rfl
  | some preview => rfl

theorem operation_requestFields (call : HostCall) :
    (member (requestFields call) (key "operation")).bind Value.asString? =
      some (key call.operation.text) := by
  rw [requestFields]
  cases call.preview with
  | none => rfl
  | some preview => rfl

theorem payloadBytes_requestFields (call : HostCall) :
    member (requestFields call) (key "payloadBytes") = some (lengthField call.bytes.length) := by
  rw [requestFields]
  cases call.preview with
  | none => rfl
  | some preview => rfl

theorem preview_requestFields (call : HostCall) :
    member (requestFields call) (key "preview") = call.preview := by
  rw [requestFields]
  cases call.preview with
  | none => rfl
  | some preview => rfl

theorem known_operation (operation : HostOperation) :
    (HostOperation.all.any fun known =>
      decide (some (key operation.text) = some (key known.text))) = true := by
  cases operation <;> decide

theorem requestHeader_eq_ok {numerals : Numerals} {call : HostCall} {frame : Bytes} :
    requestHeader numerals call = .ok frame ↔ call.bytes.length ≤ MAX_HOST_PAYLOAD_BYTES ∧
      (call.operation = .importLogs || call.bytes.isEmpty) = true ∧
      (call.operation = .previewConfig || call.preview.isNone) = true ∧
      encodeJsonFrame numerals (requestValue call) = .ok frame := by
  rw [requestHeader, ensure_bind_eq_ok, ensure_bind_eq_ok, ensure_bind_eq_ok, decide_eq_true_iff]

/-- A request that was sent is read back. -/
theorem readRequest_gives {numerals : Numerals} {call : HostCall} {frame : Bytes}
    (exact : Exact numerals.read numerals.write (requestValue call))
    (encoded : requestHeader numerals call = .ok frame) :
    Gives (readRequest numerals) (frame ++ call.bytes) (requestValue call, call.bytes) := by
  obtain ⟨small, payloadAllowed, previewAllowed, encoded⟩ := requestHeader_eq_ok.mp encoded
  refine Gives.bind (readJsonFrame_of_encode exact encoded) ?_
  refine Gives.of_ensure (knownFields_requestFields call) _ ?_
  refine Gives.of_ensure ?_ _ ?_
  · rw [operation_requestFields, preview_requestFields]
    revert previewAllowed
    cases call.operation <;> exact id
  rw [payloadBytes_requestFields, payloadLength_lengthField small]
  refine Gives.of_ensure ?_ _ (Gives.of_ensure ?_ _ (Gives.map (readPayload_gives small) ?_))
  · rw [version_requestFields, operation_requestFields, known_operation]
    rfl
  · have isEmpty : decide (call.bytes.length = 0) = call.bytes.isEmpty := by
      cases call.bytes <;> rfl
    rw [operation_requestFields, isEmpty]
    revert payloadAllowed
    cases call.operation <;> exact id
  · exact Gives.done _

/-! ### Responses -/

theorem knownFields_responseFields (response : HostResponse) :
    ((responseFields response).all fun field => field.1 ∈
      [key "version", key "ok", key "payloadBytes", key "error", key "result"]) = true := by
  rw [responseFields]
  cases response.result <;> cases response.error <;> rfl

theorem version_responseFields (response : HostResponse) :
    isVersion (member (responseFields response) (key "version")) = true := by
  rw [responseFields]
  cases response.result <;> cases response.error <;> rfl

theorem ok_responseFields (response : HostResponse) :
    asBool? (member (responseFields response) (key "ok")) = some response.ok := by
  rw [responseFields]
  cases response.result <;> cases response.error <;> rfl

theorem payloadBytes_responseFields (response : HostResponse) :
    member (responseFields response) (key "payloadBytes") =
      some (lengthField response.payloadBytes) := by
  rw [responseFields]
  cases response.result <;> cases response.error <;> rfl

theorem error_responseFields (response : HostResponse) :
    member (responseFields response) (key "error") = response.error.map Value.str := by
  rw [responseFields]
  cases response.result <;> cases response.error <;> rfl

/-- What the reader of a response asks of its fields: an answer has no error; a refusal has one,
and no payload. -/
def HostResponse.Readable (response : HostResponse) : Prop :=
  if response.ok then response.error = none
  else response.payloadBytes = 0 ∧ response.error.isSome = true

theorem fits_iff_readable (response : HostResponse) :
    (if response.ok then (response.error.map Value.str).isNone
      else response.payloadBytes = 0 &&
        ((response.error.map Value.str).bind Value.asString?).isSome) = true ↔
      response.Readable := by
  rw [HostResponse.Readable]
  cases response.ok <;> cases response.error <;> simp [Value.asString?]

theorem acceptRequest_accepts {numerals : Numerals} {call : HostCall} {frame : Bytes}
    (exact : Exact numerals.read numerals.write (requestValue call))
    (encoded : requestHeader numerals call = .ok frame) :
    Accepts (acceptRequest numerals) (frame ++ call.bytes) (requestValue call, call.bytes) :=
  (readRequest_gives exact encoded).acceptsAtEnd id

theorem readResult_accepts {numerals : Numerals} {response : HostResponse} {payload frame : Bytes}
    (exact : Exact numerals.read numerals.write (responseHeader response))
    (encoded : encodeJsonFrame numerals (responseHeader response) = .ok frame)
    (length : payload.length = response.payloadBytes)
    (small : response.payloadBytes ≤ MAX_HOST_PAYLOAD_BYTES) (readable : response.Readable) :
    Accepts (readResult numerals) (frame ++ payload) (responseHeader response, payload) := by
  refine Gives.accepts _ (readJsonFrame_of_encode exact encoded) ?_
  refine Accepts.of_ensure (knownFields_responseFields response) _ ?_
  rw [ok_responseFields, payloadBytes_responseFields, payloadLength_lengthField small]
  refine Accepts.of_ensure ?_ _ ?_
  · rw [version_responseFields, error_responseFields]
    exact (fits_iff_readable response).mpr readable
  · rw [← length] at small ⊢
    exact (readPayload_gives small).acceptsAtEnd fun payload => (responseHeader response, payload)

theorem readResult_refuses {numerals : Numerals} {response : HostResponse} {frame : Bytes}
    (exact : Exact numerals.read numerals.write (responseHeader response))
    (encoded : encodeJsonFrame numerals (responseHeader response) = .ok frame)
    (small : response.payloadBytes ≤ MAX_HOST_PAYLOAD_BYTES) (unreadable : ¬ response.Readable)
    {reader : Reader} {rest : Bytes} (comparable : Comparable reader.clear (frame ++ rest)) :
    ∃ error, readResult numerals reader = .error error := by
  refine Gives.refuses (readJsonFrame_of_encode exact encoded) (fun after => ?_) comparable
  dsimp only [fieldsOf]
  rw [knownFields_responseFields, ok_responseFields, payloadBytes_responseFields,
    payloadLength_lengthField small, error_responseFields, version_responseFields]
  rw [← fits_iff_readable, Bool.not_eq_true] at unreadable
  refine ⟨"invalid host response fields", ?_⟩
  dsimp only
  rw [unreadable]
  rfl

/-! ### Streams of chunks -/

/-- The read is exact on a stream: it gives `result` if the bytes are `message`, and fails if
they end before or go on after it. -/
def Framed {Result : Type} (read : Reader → Except String Result) (message : Bytes)
    (result : Result) (chunks : List Bytes) : Prop :=
  (chunks.flatten = message → read ⟨[], chunks⟩ = .ok result) ∧
    (chunks.flatten <+: message → chunks.flatten ≠ message →
      ∃ error, read ⟨[], chunks⟩ = .error error) ∧
    (message <+: chunks.flatten → chunks.flatten ≠ message →
      ∃ error, read ⟨[], chunks⟩ = .error error)

theorem comparable_clear {chunks : List Bytes} {message : Bytes}
    (comparable : Comparable chunks.flatten message) :
    Comparable (Reader.clear ⟨[], chunks⟩) message := by
  rcases comparable with shorter | longer
  · exact .inl ((clearBytes_initial chunks).trans shorter)
  · exact List.prefix_or_prefix_of_prefix (clearBytes_initial chunks) longer

theorem Accepts.eq_ok_iff {Result : Type} {read : Reader → Except String Result}
    {message : Bytes} {result : Result} (accepts : Accepts read message result)
    {chunks : List Bytes} (comparable : Comparable chunks.flatten message) :
    read ⟨[], chunks⟩ = .ok result ↔ clearBytes chunks = message := by
  rcases accepts ⟨[], chunks⟩ (comparable_clear comparable) with
    ⟨same, reads⟩ | ⟨different, error, fails⟩
  · exact iff_of_true reads same
  · refine iff_of_false (fun reads => ?_) different
    rw [fails] at reads
    cases reads

theorem Accepts.eq_error_iff {Result : Type} {read : Reader → Except String Result}
    {message : Bytes} {result : Result} (accepts : Accepts read message result)
    {chunks : List Bytes} (comparable : Comparable chunks.flatten message) :
    (∃ error, read ⟨[], chunks⟩ = .error error) ↔ clearBytes chunks ≠ message := by
  rcases accepts ⟨[], chunks⟩ (comparable_clear comparable) with
    ⟨same, reads⟩ | ⟨different, fails⟩
  · refine iff_of_false (fun fails => ?_) (fun different => different same)
    obtain ⟨error, fails⟩ := fails
    rw [reads] at fails
    cases fails
  · exact iff_of_true fails different

theorem Accepts.framed_iff {Result : Type} {read : Reader → Except String Result}
    {message : Bytes} {result : Result} (accepts : Accepts read message result)
    (chunks : List Bytes) :
    Framed read message result chunks ↔
      (chunks.flatten = message ↔ clearBytes chunks = message) := by
  constructor
  · rintro ⟨whole, -, longer⟩
    constructor
    · intro same
      exact (accepts.eq_ok_iff (.inl (same ▸ List.prefix_refl _))).mp (whole same)
    · intro clear
      have goesOn : message <+: chunks.flatten := clear ▸ clearBytes_initial chunks
      by_contra different
      exact (accepts.eq_error_iff (.inr goesOn)).mp (longer goesOn different) clear
  · intro agree
    refine ⟨fun same => ?_, fun shorter different => ?_, fun longer different => ?_⟩
    · exact (accepts.eq_ok_iff (.inl (same ▸ List.prefix_refl _))).mpr (agree.mp same)
    · exact (accepts.eq_error_iff (.inl shorter)).mpr fun clear => different (agree.mpr clear)
    · exact (accepts.eq_error_iff (.inr longer)).mpr fun clear => different (agree.mpr clear)

/-! ### Successive reads -/

inductive ReadCall where
  | exact (length : Nat)
  | jsonFrame

inductive ReadOutcome where
  | bytes (output : Bytes)
  | value (value : Value)

def readCall (numerals : Numerals) (reader : Reader) :
    ReadCall → Except String (ReadOutcome × Reader)
  | .exact length => (readExact reader length).map fun read => (.bytes read.1, read.2)
  | .jsonFrame => (readJsonFrame numerals reader).map fun read => (.value read.1, read.2)

def readCalls (numerals : Numerals) : List ReadCall → Reader →
    Except String (List ReadOutcome × Reader)
  | [], reader => .ok ([], reader)
  | call :: calls, reader => do
      let (outcome, reader) ← readCall numerals reader call
      let (outcomes, reader) ← readCalls numerals calls reader
      return (outcome :: outcomes, reader)

/-- The bytes that an outcome stands for. -/
inductive ReadFrom (numerals : Numerals) : ReadOutcome → Bytes → Prop
  | bytes (output : Bytes) : ReadFrom numerals (.bytes output) output
  | frame {body : Bytes} {value : Value} (small : body.length ≤ MAX_HEADER_BYTES)
      (denotes : (decodeFatal body).bind (parse numerals.read) = some value) :
      ReadFrom numerals (.value value) (frameOf body)

theorem readJsonFrame_bytes {numerals : Numerals} {reader after : Reader} {value : Value}
    (reads : readJsonFrame numerals reader = .ok (value, after)) :
    ∃ segment, ReadFrom numerals (.value value) segment ∧
      reader.bytes = segment ++ after.bytes := by
  rw [readJsonFrame, bind_eq_ok] at reads
  obtain ⟨⟨first, between⟩, readsPrefix, reads⟩ := reads
  rw [ensure_bind_eq_ok, decide_eq_true_iff, bind_eq_ok] at reads
  obtain ⟨small, ⟨body, left⟩, readsBody, reads⟩ := reads
  obtain ⟨firstBytes, four⟩ := readExact_bytes readsPrefix
  obtain ⟨bodyBytes, length⟩ := readExact_bytes readsBody
  dsimp only at small reads length
  split at reads
  · next other denotes =>
    cases reads
    refine ⟨frameOf body, .frame (length ▸ small) denotes, ?_⟩
    rw [frameOf, length, lengthPrefix_prefixLength four, firstBytes, bodyBytes, List.append_assoc]
  · cases reads

theorem readCall_bytes {numerals : Numerals} {reader after : Reader} {call : ReadCall}
    {outcome : ReadOutcome} (reads : readCall numerals reader call = .ok (outcome, after)) :
    ∃ segment, ReadFrom numerals outcome segment ∧ reader.bytes = segment ++ after.bytes := by
  cases call with
  | exact length =>
    rw [readCall, map_eq_ok] at reads
    obtain ⟨⟨output, left⟩, reads, same⟩ := reads
    cases same
    exact ⟨output, .bytes output, (readExact_bytes reads).1⟩
  | jsonFrame =>
    rw [readCall, map_eq_ok] at reads
    obtain ⟨⟨value, left⟩, reads, same⟩ := reads
    cases same
    exact readJsonFrame_bytes reads

/-- Successive reads take the bytes of the stream one after the other. -/
theorem readCalls_bytes {numerals : Numerals} {calls : List ReadCall} :
    ∀ {reader after : Reader} {outcomes : List ReadOutcome},
      readCalls numerals calls reader = .ok (outcomes, after) →
      ∃ segments, List.Forall₂ (ReadFrom numerals) outcomes segments ∧
        reader.bytes = segments.flatten ++ after.bytes := by
  induction calls with
  | nil =>
    intro reader after outcomes reads
    cases reads
    exact ⟨[], .nil, rfl⟩
  | cons call calls inductionHypothesis =>
    intro reader after outcomes reads
    rw [readCalls, bind_eq_ok] at reads
    obtain ⟨⟨outcome, between⟩, readsFirst, reads⟩ := reads
    rw [bind_eq_ok] at reads
    obtain ⟨⟨others, left⟩, readsOthers, reads⟩ := reads
    cases reads
    obtain ⟨segment, fromSegment, bytes⟩ := readCall_bytes readsFirst
    obtain ⟨segments, fromSegments, rest⟩ := inductionHypothesis readsOthers
    refine ⟨segment :: segments, .cons fromSegment fromSegments, ?_⟩
    rw [List.flatten_cons, List.append_assoc, bytes, rest]

/-! ### The framing -/

/-- A request is framed exactly unless the stream has an empty chunk at the wrong place: the
bytes before the first empty chunk must be the message exactly if all bytes are. For a
response, the header must moreover be one the reader allows. Successive reads of any kind
neither drop nor repeat bytes. -/
theorem framing_exact_iff (numerals : Numerals) :
    (∀ (call : HostCall) (frame : Bytes) (chunks : List Bytes),
      Exact numerals.read numerals.write (requestValue call) →
      requestHeader numerals call = .ok frame →
      (Framed (acceptRequest numerals) (frame ++ call.bytes) (requestValue call, call.bytes)
          chunks ↔
        (chunks.flatten = frame ++ call.bytes ↔ clearBytes chunks = frame ++ call.bytes))) ∧
    (∀ (response : HostResponse) (payload frame : Bytes) (chunks : List Bytes),
      Exact numerals.read numerals.write (responseHeader response) →
      encodeJsonFrame numerals (responseHeader response) = .ok frame →
      payload.length = response.payloadBytes →
      response.payloadBytes ≤ MAX_HOST_PAYLOAD_BYTES →
      (Framed (readResult numerals) (frame ++ payload) (responseHeader response, payload) chunks ↔
        (chunks.flatten = frame ++ payload →
          response.Readable ∧ clearBytes chunks = frame ++ payload) ∧
        (response.Readable → clearBytes chunks = frame ++ payload →
          chunks.flatten = frame ++ payload))) ∧
    (∀ (calls : List ReadCall) (reader after : Reader) (outcomes : List ReadOutcome),
      readCalls numerals calls reader = .ok (outcomes, after) →
      ∃ segments, List.Forall₂ (ReadFrom numerals) outcomes segments ∧
        reader.bytes = segments.flatten ++ after.bytes) := by
  refine ⟨fun call frame chunks exact encoded => ?_,
    fun response payload frame chunks exact encoded length small => ?_,
    fun calls reader after outcomes reads => readCalls_bytes reads⟩
  · exact (acceptRequest_accepts exact encoded).framed_iff chunks
  by_cases readable : response.Readable
  · rw [(readResult_accepts exact encoded length small readable).framed_iff chunks]
    exact ⟨fun agree => ⟨fun same => ⟨readable, agree.mp same⟩, fun _ => agree.mpr⟩,
      fun ⟨forward, backward⟩ => ⟨fun same => (forward same).2, backward readable⟩⟩
  · have refuses (comparable : Comparable chunks.flatten (frame ++ payload)) :
        ∃ error, readResult numerals ⟨[], chunks⟩ = .error error :=
      readResult_refuses exact encoded small readable (comparable_clear comparable)
    constructor
    · rintro ⟨whole, -, -⟩
      refine ⟨fun same => ?_, fun holds => absurd holds readable⟩
      obtain ⟨error, fails⟩ := refuses (.inl (same ▸ List.prefix_refl _))
      rw [whole same] at fails
      cases fails
    · rintro ⟨forward, -⟩
      exact ⟨fun same => absurd (forward same).1 readable,
        fun shorter _ => refuses (.inl shorter), fun longer _ => refuses (.inr longer)⟩

/-- Natural numbers in decimal. -/
def decimals : Numerals where
  read text := .finite (text.foldl (fun value char => value * 10 + (char.toNat - 48)) 0 : Nat)
  write
    | .finite value => Nat.toDigits 10 value.num.toNat
    | _ => "null".toList

def askCapabilities : HostCall := ⟨.capabilities, none, none⟩

def capabilitiesFrame : Bytes :=
  [0, 0, 0, 57] ++
    encode "\x7b\"version\":1,\"operation\":\"capabilities\",\"payloadBytes\":0\x7d".toList

/-- An empty chunk after the message hides what follows; one within the message ends it. -/
def hidingChunks : List Bytes := [capabilitiesFrame, [], [0]]

theorem exact_askCapabilities :
    Exact decimals.read decimals.write (requestValue askCapabilities) := by
  refine ⟨?_, trivial, ?_, trivial⟩
  · exact ⟨by decide, rfl⟩
  · exact ⟨by decide, rfl⟩

theorem requestHeader_askCapabilities :
    requestHeader decimals askCapabilities = .ok capabilitiesFrame := by
  decide +kernel

theorem acceptRequest_hidingChunks :
    (acceptRequest decimals ⟨[], hidingChunks⟩).toOption.isSome = true := by
  decide +kernel

/-- A byte that follows the message goes unnoticed behind an empty chunk. -/
theorem framing_not_exact : ¬ ∀ (call : HostCall) (frame : Bytes) (chunks : List Bytes),
    Exact decimals.read decimals.write (requestValue call) →
    requestHeader decimals call = .ok frame →
    Framed (acceptRequest decimals) (frame ++ call.bytes) (requestValue call, call.bytes)
      chunks := by
  intro claim
  obtain ⟨-, -, longer⟩ := claim askCapabilities capabilitiesFrame hidingChunks
    exact_askCapabilities requestHeader_askCapabilities
  have goesOn : capabilitiesFrame ++ askCapabilities.bytes <+: hidingChunks.flatten :=
    ⟨[0], by decide +kernel⟩
  obtain ⟨error, fails⟩ := longer goesOn (by decide +kernel)
  have accepted := acceptRequest_hidingChunks
  rw [fails] at accepted
  cases accepted

theorem framing_exact_capabilities :
    Framed (acceptRequest decimals) (capabilitiesFrame ++ askCapabilities.bytes)
      (requestValue askCapabilities, askCapabilities.bytes) [capabilitiesFrame] :=
  ((framing_exact_iff decimals).1 askCapabilities capabilitiesFrame [capabilitiesFrame]
    exact_askCapabilities requestHeader_askCapabilities).mpr (by decide +kernel)

end AiSwitcher.HostProtocol
