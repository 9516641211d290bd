/-
This file proves that the usage of a response does not depend on how its bytes are cut into
chunks. Reading two pieces of a text one after the other is reading them at once, the mode
is decided by the same prefix, and the cap on a body counts all its bytes; so the taps of two
cuts differ only in how the held body is divided. Asking for the result a second time changes nothing.
-/

import Mathlib.Data.List.DropRight
import AiSwitcher.Gateway.UsageTap

namespace AiSwitcher.Gateway

open JavaScript Utf8

variable {runtime : TapRuntime} {style : UsageStyle}

/-! ### Reading a text in pieces -/

namespace UsageReader

variable {reader : UsageReader}

theorem appendLine_nil : reader.appendLine [] = reader := by
  rw [appendLine, if_pos (.inl rfl)]

theorem appendLine_append (first second : List Char) :
    reader.appendLine (first ++ second) = (reader.appendLine first).appendLine second := by
  by_cases tooLong : reader.lineTooLong = true
  · have stays (slice : List Char) : reader.appendLine slice = reader := by
      rw [appendLine, if_pos (.inr tooLong)]
    rw [stays, stays, stays]
  cases first with
  | nil => rw [appendLine_nil, List.nil_append]
  | cons character rest =>
    generalize isFirst : character :: rest = first
    have present : first ≠ [] := isFirst ▸ List.cons_ne_nil _ _
    cases second with
    | nil => rw [appendLine_nil, List.append_nil]
    | cons character rest =>
      generalize isSecond : character :: rest = second
      have presentToo : second ≠ [] := isSecond ▸ List.cons_ne_nil _ _
      have both : first ++ second ≠ [] := List.append_ne_nil_of_left_ne_nil present _
      rw [appendLine, if_neg (not_or.mpr ⟨both, tooLong⟩), List.map_append, List.sum_append]
      rw [appendLine.eq_def reader first, if_neg (not_or.mpr ⟨present, tooLong⟩)]
      by_cases exceeds : MAX_EVENT_BYTES < (reader.line.map unitsOf).sum + (first.map unitsOf).sum
      · rw [if_pos exceeds, if_pos (by omega), appendLine, if_pos (.inr rfl)]
      · rw [if_neg exceeds, appendLine, if_neg (not_or.mpr ⟨presentToo, tooLong⟩), List.map_append,
          List.sum_append, Nat.add_assoc, List.append_assoc]

theorem skipLf_appendLine (slice : List Char) : (reader.appendLine slice).skipLf = reader.skipLf := by
  unfold appendLine
  split
  · rfl
  · split <;> rfl

theorem appendLine_skipLf (slice : List Char) (skipLf : Bool) :
    { reader with skipLf := skipLf }.appendLine slice =
      { reader.appendLine slice with skipLf := skipLf } := by
  unfold appendLine
  dsimp only
  split
  · rfl
  · split <;> rfl

/-- What was read of a line can be put to the line before the loop goes on. -/
theorem feedFrom_slice {slice : List Char} (fresh : reader.skipLf = true → slice = [])
    (text : List Char) :
    feedFrom runtime style slice reader text =
      feedFrom runtime style [] (reader.appendLine slice) text := by
  induction text generalizing slice reader with
  | nil => rw [feedFrom, feedFrom, appendLine_nil]
  | cons character rest inductionHypothesis =>
    rw [feedFrom, feedFrom, skipLf_appendLine]
    by_cases skips : reader.skipLf = true ∧ character = '\n'
    · rw [if_pos skips, if_pos skips, fresh skips.1, appendLine_nil]
    · rw [if_neg skips, if_neg skips, ← appendLine_skipLf]
      dsimp only
      rw [appendLine_nil]
      split
      · rfl
      · have goesOn : ({ reader with skipLf := false }.appendLine slice).skipLf = false :=
          skipLf_appendLine slice
        rw [inductionHypothesis fun skips => absurd skips Bool.false_ne_true,
          inductionHypothesis fun skips => absurd (goesOn.symm.trans skips) Bool.false_ne_true,
          appendLine_append]
        rfl

theorem feedFrom_append {slice : List Char} (fresh : reader.skipLf = true → slice = [])
    (first second : List Char) :
    feedFrom runtime style slice reader (first ++ second) =
      feedFrom runtime style [] (feedFrom runtime style slice reader first) second := by
  induction first generalizing slice reader with
  | nil =>
    rw [List.nil_append, feedFrom_slice fresh]
    rfl
  | cons character rest inductionHypothesis =>
    rw [List.cons_append, feedFrom, feedFrom]
    split
    · exact inductionHypothesis fun _ => rfl
    · dsimp only
      split
      · exact inductionHypothesis fun _ => rfl
      · exact inductionHypothesis fun skips => absurd skips Bool.false_ne_true

theorem feedText_append (first second : List Char) :
    reader.feedText runtime style (first ++ second) =
      (reader.feedText runtime style first).feedText runtime style second :=
  feedFrom_append (fun _ => rfl) first second

theorem feedText_nil : reader.feedText runtime style [] = reader := appendLine_nil

/-! ### The end of the events -/

/-- No line and no event is being read. -/
structure Idle (reader : UsageReader) : Prop where
  line : reader.line = []
  lineTooLong : reader.lineTooLong = false
  data : reader.data = []
  dataBytes : reader.dataBytes = 0
  eventTooBig : reader.eventTooBig = false

theorem line_dispatch : (reader.dispatch runtime style).line = reader.line := by
  unfold dispatch
  dsimp only
  split
  · rfl
  · split <;> rfl

theorem lineTooLong_dispatch : (reader.dispatch runtime style).lineTooLong = reader.lineTooLong := by
  unfold dispatch
  dsimp only
  split
  · rfl
  · split <;> rfl

theorem line_dataLine (value : List Char) :
    (reader.dataLine value).line = reader.line ∧
      (reader.dataLine value).lineTooLong = reader.lineTooLong := by
  unfold dataLine
  dsimp only
  split
  · exact ⟨rfl, rfl⟩
  · split <;> exact ⟨rfl, rfl⟩

theorem line_endLine : (reader.endLine runtime style).line = [] ∧
    (reader.endLine runtime style).lineTooLong = false := by
  unfold endLine
  dsimp only
  split
  · exact ⟨rfl, rfl⟩
  split
  · exact ⟨line_dispatch, lineTooLong_dispatch⟩
  split
  · split <;> exact line_dataLine _
  · exact ⟨rfl, rfl⟩

theorem idle_finish (text : List Char) : Idle (reader.finish runtime style text) := by
  have ended : ((reader.feedText runtime style text).endLine runtime style).line = [] ∧
      ((reader.feedText runtime style text).endLine runtime style).lineTooLong = false :=
    line_endLine
  unfold finish
  refine ⟨line_dispatch.trans ended.1, lineTooLong_dispatch.trans ended.2, ?_, ?_, ?_⟩
  all_goals
    unfold dispatch
    dsimp only
    split
    · rfl
    · split <;> rfl

theorem Idle.finish (idle : Idle reader) : reader.finish runtime style [] = reader := by
  obtain ⟨line, lineTooLong, data, dataBytes, eventTooBig⟩ := idle
  have same : ({ reader with data := [], dataBytes := 0, eventTooBig := false } : UsageReader) =
      reader := by
    rw [← data, ← dataBytes, ← eventTooBig]
  have ended : ({ reader with line := [], lineTooLong := false } : UsageReader) = reader := by
    rw [← line, ← lineTooLong]
  have dispatched : reader.dispatch runtime style = reader := by
    rw [dispatch, if_pos (.inr data), same]
  rw [UsageReader.finish, feedText_nil, endLine, lineTooLong, ended, if_neg Bool.false_ne_true,
    if_pos line, dispatched, dispatched]

end UsageReader

/-! ### Writing in pieces -/

namespace UsageTap

variable {tap : UsageTap}

/-- The tap with its held body in one piece. -/
def joined (tap : UsageTap) : UsageTap := { tap with parts := [tap.parts.flatten] }

/-- The size of the held body is counted, and within the cap. -/
structure Filled (tap : UsageTap) : Prop where
  held : tap.held = tap.parts.flatten.length
  capped : tap.held ≤ MAX_JSON_BYTES

theorem filled_new (contentType : String) : Filled (new runtime contentType) :=
  ⟨rfl, Nat.zero_le _⟩

theorem Filled.writeJson (filled : Filled tap) (chunk : Bytes) : Filled (tap.writeJson chunk) := by
  unfold UsageTap.writeJson
  split
  · exact filled
  split
  · exact ⟨rfl, Nat.zero_le _⟩
  next within =>
    refine ⟨?_, Nat.le_of_not_lt within⟩
    dsimp only
    rw [List.flatten_append, List.length_append, filled.held, List.flatten_singleton]

theorem Filled.process (filled : Filled tap) (chunk : Bytes) :
    Filled (tap.process runtime style chunk) := by
  unfold UsageTap.process
  split
  · exact ⟨filled.held, filled.capped⟩
  · exact filled.writeJson chunk

theorem Filled.write (filled : Filled tap) (chunk : Bytes) :
    Filled (tap.write runtime style chunk) := by
  unfold UsageTap.write sniff
  split
  · split
    next isSniff =>
      split at isSniff
      · obtain rfl := (Prod.mk.inj isSniff).1
        exact ⟨filled.held, filled.capped⟩
      · split at isSniff
        · obtain rfl := (Prod.mk.inj isSniff).1
          exact ⟨filled.held, filled.capped⟩
        · cases (Prod.mk.inj isSniff).2
    next isSniff =>
      split at isSniff
      · cases (Prod.mk.inj isSniff).2
      · split at isSniff
        · cases (Prod.mk.inj isSniff).2
        · obtain rfl := (Prod.mk.inj isSniff).1
          have decided (sse : Bool) :
              Filled { tap with held0 := [], sniffing := false, sse := sse } :=
            ⟨filled.held, filled.capped⟩
          exact (decided _).process _
  · exact filled.process chunk

theorem writeSse_append (first second : Bytes) :
    tap.writeSse runtime style (first ++ second) =
      (tap.writeSse runtime style first).writeSse runtime style second := by
  unfold writeSse
  rw [Decoder.write_append]
  dsimp only
  rw [UsageReader.feedText_append]

theorem joined_writeJson_append (first second : Bytes) :
    (tap.writeJson (first ++ second)).joined = ((tap.writeJson first).writeJson second).joined := by
  by_cases overflow : tap.reader.overflow = true
  · have stays (chunk : Bytes) : tap.writeJson chunk = tap := by rw [writeJson, if_pos overflow]
    rw [stays, stays, stays]
  rw [writeJson, if_neg overflow, List.length_append, writeJson.eq_def tap first, if_neg overflow]
  by_cases exceeds : MAX_JSON_BYTES < tap.held + first.length
  · rw [if_pos exceeds, if_pos (by omega), writeJson, if_pos rfl]
  rw [if_neg exceeds, writeJson, if_neg overflow]
  dsimp only
  rw [Nat.add_assoc]
  split
  · rfl
  · simp only [joined, List.flatten_append, List.flatten_singleton, List.append_assoc]

theorem sse_writeJson (chunk : Bytes) : (tap.writeJson chunk).sse = tap.sse := by
  unfold writeJson
  split
  · rfl
  · split <;> rfl

theorem joined_process_append (first second : Bytes) :
    (tap.process runtime style (first ++ second)).joined =
      ((tap.process runtime style first).process runtime style second).joined := by
  cases isSse : tap.sse with
  | true =>
    have stays : (tap.writeSse runtime style first).sse = true := isSse
    rw [process, if_pos isSse, process.eq_def _ _ tap first, if_pos isSse, process, if_pos stays,
      writeSse_append]
  | false =>
    have isJson : tap.sse ≠ true := isSse ▸ Bool.false_ne_true
    rw [process, if_neg isJson, process.eq_def _ _ tap first, if_neg isJson, process, sse_writeJson,
      if_neg isJson, joined_writeJson_append]

/-- A longer prefix decides nothing else. -/
theorem decideSse_append {body : Bytes} {sse : Bool} (decided : decideSse body = some sse)
    (present : body ≠ []) (rest : Bytes) : decideSse (body ++ rest) = some sse := by
  by_cases long : 6 ≤ body.length
  · rwa [decideSse, List.take_append_of_le_length long]
  have whole : body.take 6 = body := List.take_of_length_le (by omega)
  have grows : body <+: (body ++ rest).take 6 := by
    rw [List.take_append, whole]
    exact List.prefix_append _ _
  unfold decideSse at decided ⊢
  rw [whole] at decided
  dsimp only at decided ⊢
  generalize (body ++ rest).take 6 = head at grows
  by_cases starts : (ascii ":" :: SSE_FIELDS).any (·.isPrefixOf body) = true
  · obtain ⟨field, isField, begins⟩ := List.any_eq_true.mp starts
    rw [if_pos starts] at decided
    have begins : field <+: head := (List.isPrefixOf_iff_prefix.mp begins).trans grows
    have startsToo : (ascii ":" :: SSE_FIELDS).any (·.isPrefixOf head) = true :=
      List.any_eq_true.mpr ⟨field, isField, List.isPrefixOf_iff_prefix.mpr begins⟩
    rw [if_pos startsToo, decided]
  rw [if_neg starts] at decided
  have nowhere : ¬ SSE_FIELDS.any (body.isPrefixOf ·) = true := fun within => by
    rw [if_pos (by simp only [within, Bool.and_true, decide_eq_true_eq]; omega)] at decided
    cases decided
  have outside {field : Bytes} (isField : field ∈ SSE_FIELDS) : ¬ body <+: field := fun within =>
    nowhere (List.any_eq_true.mpr ⟨field, isField, List.isPrefixOf_iff_prefix.mpr within⟩)
  have stillNot : ¬ (ascii ":" :: SSE_FIELDS).any (·.isPrefixOf head) = true := by
    rintro begins
    obtain ⟨field, isField, begins⟩ := List.any_eq_true.mp begins
    obtain within | begins :=
      List.prefix_or_prefix_of_prefix grows (List.isPrefixOf_iff_prefix.mp begins)
    · obtain rfl | isField := List.mem_cons.mp isField
      · have same : body = ascii ":" :=
          within.eq_of_length_le (List.length_pos_iff.mpr present)
        rw [same] at starts
        exact starts rfl
      · exact outside isField within
    · exact starts (List.any_eq_true.mpr ⟨field, isField, List.isPrefixOf_iff_prefix.mpr begins⟩)
  have stillNowhere : ¬ (head.length < 6 && SSE_FIELDS.any (head.isPrefixOf ·)) = true := by
    rintro within
    obtain ⟨field, isField, within⟩ := List.any_eq_true.mp (Bool.and_eq_true_iff.mp within).2
    exact outside isField (grows.trans (List.isPrefixOf_iff_prefix.mp within))
  rw [if_neg stillNot, if_neg stillNowhere]
  rwa [if_neg (by simp only [nowhere, Bool.and_false, Bool.false_eq_true, not_false_eq_true])]
    at decided

/-! ### The mode -/

/-- A write while the mode is not decided, of the bytes after the leading space. -/
def writeHeld (runtime : TapRuntime) (style : UsageStyle) (tap : UsageTap) (body : Bytes) : UsageTap :=
  if body = [] then { tap with held0 := [] }
  else
    match decideSse body with
    | none => { tap with held0 := body }
    | some sse =>
        { tap with held0 := [], sniffing := false, sse := sse }.process runtime style body

theorem write_sniffing (sniffing : tap.sniffing = true) (chunk : Bytes) :
    tap.write runtime style chunk =
      tap.writeHeld runtime style ((tap.held0 ++ chunk).dropWhile isSpace) := by
  unfold write sniff writeHeld
  rw [if_pos sniffing]
  cases (tap.held0 ++ chunk).dropWhile isSpace with
  | nil => rfl
  | cons byte rest =>
    rw [if_neg (List.cons_ne_nil _ _)]
    dsimp only
    cases decideSse (byte :: rest) <;> rfl

theorem writeHeld_held0 (held0 body : Bytes) :
    { tap with held0 := held0 }.writeHeld runtime style body = tap.writeHeld runtime style body := by
  unfold writeHeld
  split
  · rfl
  · cases decideSse body <;> rfl

/-- Space that was dropped from the first part stays dropped. -/
theorem dropWhile_dropWhile_append (first second : Bytes) :
    (first.dropWhile isSpace ++ second).dropWhile isSpace = (first ++ second).dropWhile isSpace := by
  rw [List.dropWhile_append, List.dropWhile_idempotent, ← List.dropWhile_append]

theorem sniffing_process (chunk : Bytes) :
    (tap.process runtime style chunk).sniffing = tap.sniffing := by
  unfold process
  split
  · rfl
  · unfold writeJson
    split
    · rfl
    · split <;> rfl

theorem joined_write_append (first second : Bytes) :
    (tap.write runtime style (first ++ second)).joined =
      ((tap.write runtime style first).write runtime style second).joined := by
  by_cases sniffing : tap.sniffing = true
  · rw [write_sniffing sniffing, write_sniffing sniffing first, ← List.append_assoc,
      ← dropWhile_dropWhile_append]
    have trimmed := List.dropWhile_idempotent isSpace (tap.held0 ++ first)
    generalize (tap.held0 ++ first).dropWhile isSpace = body at trimmed
    have undecided (isHeld : tap.writeHeld runtime style body = { tap with held0 := body }) :
        (tap.writeHeld runtime style ((body ++ second).dropWhile isSpace)).joined =
          ((tap.writeHeld runtime style body).write runtime style second).joined := by
      have stillSniffing : { tap with held0 := body }.sniffing = true := sniffing
      rw [isHeld, write_sniffing stillSniffing, writeHeld_held0 body]
    by_cases isSpaces : body = []
    · exact undecided (by rw [writeHeld, if_pos isSpaces, isSpaces])
    cases isDecided : decideSse body with
    | none => exact undecided (by rw [writeHeld, if_neg isSpaces, isDecided])
    | some sse =>
      have stays := decideSse_append isDecided isSpaces second
      have more : body ++ second ≠ [] := List.append_ne_nil_of_left_ne_nil isSpaces _
      have stillTrimmed : (body ++ second).dropWhile isSpace = body ++ second := by
        rw [List.dropWhile_append, trimmed, if_neg (isSpaces ∘ List.isEmpty_iff.mp)]
      rw [stillTrimmed, writeHeld, if_neg more, stays, writeHeld, if_neg isSpaces, isDecided]
      dsimp only
      rw [write, sniffing_process, if_neg Bool.false_ne_true, joined_process_append]
  · have decided : (tap.process runtime style first).sniffing ≠ true := by rwa [sniffing_process]
    rw [write, if_neg sniffing, write.eq_def _ _ tap first, if_neg sniffing, write, if_neg decided,
      joined_process_append]

/-! ### All chunks -/

theorem joined_joined (tap : UsageTap) : tap.joined.joined = tap.joined := by
  simp only [joined, List.flatten_singleton]

theorem joined_process (tap : UsageTap) (chunk : Bytes) :
    (tap.joined.process runtime style chunk).joined = (tap.process runtime style chunk).joined := by
  unfold process
  change (if tap.sse = true then _ else _ : UsageTap).joined = _
  split
  · exact joined_joined (tap.writeSse runtime style chunk)
  · unfold writeJson
    change (if tap.reader.overflow = true then tap.joined else
      if MAX_JSON_BYTES < tap.held + chunk.length then _ else _ : UsageTap).joined = _
    split
    · exact joined_joined tap
    split
    · rfl
    · simp only [joined, List.flatten_append, List.flatten_singleton]

theorem joined_writeHeld (body : Bytes) :
    (tap.joined.writeHeld runtime style body).joined = (tap.writeHeld runtime style body).joined := by
  unfold writeHeld
  split
  · exact joined_joined { tap with held0 := [] }
  · cases decideSse body with
    | none => exact joined_joined { tap with held0 := body }
    | some sse => exact joined_process { tap with held0 := [], sniffing := false, sse := sse } body

theorem joined_write (chunk : Bytes) :
    (tap.joined.write runtime style chunk).joined = (tap.write runtime style chunk).joined := by
  by_cases sniffing : tap.sniffing = true
  · have stillSniffing : tap.joined.sniffing = true := sniffing
    rw [write_sniffing sniffing, write_sniffing stillSniffing]
    exact joined_writeHeld _
  · have stillDecided : tap.joined.sniffing ≠ true := sniffing
    rw [write, if_neg stillDecided, write, if_neg sniffing, joined_process]

theorem joined_foldl (first : Bytes) (chunks : List Bytes) :
    (chunks.foldl (write runtime style) (tap.write runtime style first)).joined =
      (tap.write runtime style (first ++ chunks.flatten)).joined := by
  induction chunks using List.reverseRecOn with
  | nil => rw [List.flatten_nil, List.append_nil, List.foldl_nil]
  | append_singleton chunks chunk inductionHypothesis =>
    rw [List.foldl_append, List.foldl_cons, List.foldl_nil, ← joined_write, inductionHypothesis,
      joined_write, ← joined_write_append, List.flatten_append, List.flatten_singleton,
      List.append_assoc]

/-! ### Asking -/

/-- What is read of a tap depends only on its bytes. -/
theorem Filled.reader_asked (filled : Filled tap) :
    (tap.joined.asked runtime style).reader = (tap.asked runtime style).reader := by
  by_cases isSse : tap.sse = true
  · have stillSse : tap.joined.sse = true := isSse
    rw [asked, if_pos stillSse, asked, if_pos isSse]
    rfl
  have stillJson : ¬ tap.joined.sse = true := isSse
  rw [asked, if_neg stillJson, asked, if_neg isSse]
  by_cases isHeld : tap.reader.overflow = false ∧ 0 < tap.held
  · have present : tap.parts ≠ [] := fun isNil => by
      have empty := filled.held
      rw [isNil] at empty
      exact absurd isHeld.2 (empty ▸ Nat.lt_irrefl 0)
    have joinedHeld : tap.joined.reader.overflow = false ∧ 0 < tap.joined.held ∧
        tap.joined.parts ≠ [] := ⟨isHeld.1, isHeld.2, List.cons_ne_nil _ _⟩
    rw [if_pos joinedHeld, if_pos ⟨isHeld.1, isHeld.2, present⟩]
    dsimp only [joined]
    rw [List.flatten_singleton]
  · have nothing : ¬ (tap.joined.reader.overflow = false ∧ 0 < tap.joined.held ∧
        tap.joined.parts ≠ []) := fun held => isHeld ⟨held.1, held.2.1⟩
    rw [if_neg nothing, if_neg fun held => isHeld ⟨held.1, held.2.1⟩]
    rfl

theorem asked_asked : (tap.asked runtime style).asked runtime style = tap.asked runtime style := by
  rw [asked.eq_def _ _ tap]
  by_cases isSse : tap.sse = true
  · rw [if_pos isSse, asked, if_pos isSse]
    have flushed : Decoder.new.flush = [] := rfl
    dsimp only
    rw [flushed, (UsageReader.idle_finish _).finish]
  rw [if_neg isSse]
  split
  · rw [asked, if_neg isSse, if_neg fun held => held.2.2 rfl]
  next isRead => rw [asked, if_neg isSse, if_neg isRead]

theorem ask_eq (question : Question) : tap.ask runtime style question = tap.asked runtime style := by
  cases question <;> rfl

theorem asked_foldl (questions : List Question) :
    (questions.foldl (ask runtime style) tap).asked runtime style = tap.asked runtime style := by
  induction questions generalizing tap with
  | nil => rfl
  | cons question rest inductionHypothesis =>
    rw [List.foldl_cons, ask_eq, inductionHypothesis, asked_asked]

theorem filled_foldl (filled : Filled tap) (chunks : List Bytes) :
    Filled (chunks.foldl (write runtime style) tap) := by
  induction chunks generalizing tap with
  | nil => exact filled
  | cons chunk rest inductionHypothesis => exact inductionHypothesis (filled.write chunk)

theorem joined_new_write_nil (contentType : String) :
    ((new runtime contentType).write runtime style []).joined = (new runtime contentType).joined := by
  by_cases sniffing : (new runtime contentType).sniffing = true
  · rw [write_sniffing sniffing]
    rfl
  rw [write, if_neg sniffing, process]
  split
  · rw [writeSse, Decoder.write_nil]
    dsimp only
    rw [UsageReader.feedText_nil]
  · have empty : ¬ MAX_JSON_BYTES < (new runtime contentType).held + ([] : Bytes).length :=
      Nat.not_lt_zero _
    have noOverflow : ¬ (new runtime contentType).reader.overflow = true := Bool.false_ne_true
    rw [writeJson, if_neg noOverflow, if_neg empty]
    rfl

theorem joined_foldl_new (contentType : String) (chunks : List Bytes) :
    (chunks.foldl (write runtime style) (new runtime contentType)).joined =
      ((new runtime contentType).write runtime style chunks.flatten).joined := by
  cases chunks with
  | nil => exact (joined_new_write_nil contentType).symm
  | cons first rest => exact joined_foldl first rest

/-- The usage of a response is that of its bytes in one chunk, and asking changes nothing. -/
theorem usage_ofChunks (runtime : TapRuntime) (style : UsageStyle) (contentType : String)
    (chunks : List Bytes) (questions : List Question) :
    let whole := (new runtime contentType).write runtime style chunks.flatten
    let tap := chunks.foldl (write runtime style) (new runtime contentType)
    let asked := questions.foldl (ask runtime style) tap
    (asked.result runtime style).2 = (whole.result runtime style).2 ∧
      (asked.status runtime style).2 = (whole.status runtime style).2 := by
  intro whole tap asked
  have filled : Filled tap := filled_foldl (filled_new contentType) chunks
  have filledWhole : Filled whole := (filled_new contentType).write _
  have sameReader : (asked.asked runtime style).reader = (whole.asked runtime style).reader := by
    rw [asked_foldl, ← filled.reader_asked, joined_foldl_new, filledWhole.reader_asked]
  unfold status result
  dsimp only
  rw [sameReader]
  exact ⟨rfl, rfl⟩

end UsageTap

end AiSwitcher.Gateway
