/-
This file models the tap that reads the token usage out of an upstream response. It sees the bytes of
the response in chunks, decides from the first ones whether they are a stream of events if the
content type does not say it, and holds a part of an event or a JSON body up to a cap.

Token counts are exact; the text is what the decoder emits.
-/

import Mathlib.Data.Rat.Floor
import AiSwitcher.Library.Json
import AiSwitcher.Library.Text
import AiSwitcher.Library.TextDecoder

namespace AiSwitcher.Gateway

open JavaScript Utf8

structure UsageCounts where
  model : Option String
  inputTokens : Nat
  outputTokens : Nat
  cacheReadTokens : Nat
  cacheWriteTokens : Nat
  deriving DecidableEq

inductive UsageStyle where
  | anthropic
  | openaiResponses
  | openaiChat
  deriving DecidableEq

inductive UsageStatus where
  | ok
  | none
  | unparseable
  | overflow
  deriving DecidableEq

/-- Largest JSON body held for parsing. -/
def MAX_JSON_BYTES : Nat := 4 * 1024 * 1024

/-- Largest single SSE event held; a bigger event is skipped. -/
def MAX_EVENT_BYTES : Nat := 1024 * 1024

def ascii (text : String) : Bytes := text.toList.map fun char => UInt8.ofNat char.toNat

def SSE_FIELDS : List Bytes := ["event:", "data:", "id:", "retry:"].map ascii

def num : Option Json → Option Nat
  | some (.num (.finite value)) => if 0 ≤ value then some ⌊value⌋.toNat else none
  | _ => none

/-- `JSON.parse`, and `String.prototype.toLowerCase`. -/
structure TapRuntime where
  parse : List Char → Option Json
  toLowerCase : List Char → List Char

def includes (text : List Char) (part : String) : Bool :=
  text.tails.any (part.toList.isPrefixOf ·)

/-! ### Usage in an object -/

/-- What was found of the usage; `bad` if some of the response was not valid. -/
structure FoundUsage where
  counts : UsageCounts
  found : Bool
  bad : Bool
  deriving DecidableEq

namespace FoundUsage

variable (usage : FoundUsage)

def setModel (value : Option Json) : FoundUsage :=
  match value.bind Json.asString? with
  | some model =>
      if model = "" then usage else { usage with counts := { usage.counts with model := some model } }
  | none => usage

def object? (value : Option Json) : Option Object := value.bind Json.asObject?

/-- Values are cumulative, so the larger one is kept. -/
def applyAnthropic (root : Object) : FoundUsage :=
  let msg := (object? (root.get "message")).getD root
  let named := usage.setModel (msg.get "model")
  match (object? (msg.get "usage")).or (object? (root.get "usage")) with
  | none => named
  | some fields =>
      let atLeast (count : Nat) (field : String) := max count ((num (fields.get field)).getD 0)
      { named with
        found := true
        counts := { named.counts with
          inputTokens := atLeast named.counts.inputTokens "input_tokens"
          outputTokens := atLeast named.counts.outputTokens "output_tokens"
          cacheReadTokens := atLeast named.counts.cacheReadTokens "cache_read_input_tokens"
          cacheWriteTokens := atLeast named.counts.cacheWriteTokens "cache_creation_input_tokens" } }

/-- The prompt tokens include the cached ones. -/
def setOpenAi (prompt : Nat) (output cached : Option Nat) : FoundUsage :=
  let read := min (cached.getD 0) prompt
  { usage with
    found := true
    counts := { usage.counts with
      inputTokens := prompt - read
      cacheReadTokens := read
      cacheWriteTokens := 0
      outputTokens := output.getD 0 } }

/-- The usage of an OpenAI object, whose fields the two interfaces name differently. -/
def applyOpenAi (root : Object) (input output details : String) : FoundUsage :=
  let named := usage.setModel (root.get "model")
  match object? (root.get "usage") with
  | none => named
  | some fields =>
      match num (fields.get input) with
      | none => named
      | some prompt =>
          named.setOpenAi prompt (num (fields.get output))
            ((object? (fields.get details)).bind fun details => num (details.get "cached_tokens"))

def applyResponses (root : Object) : FoundUsage :=
  usage.applyOpenAi ((object? (root.get "response")).getD root) "input_tokens" "output_tokens"
    "input_tokens_details"

def applyChat (root : Object) : FoundUsage :=
  usage.applyOpenAi root "prompt_tokens" "completion_tokens" "prompt_tokens_details"

def apply (style : UsageStyle) (root : Json) : FoundUsage :=
  match root.asObject? with
  | none => { usage with bad := true }
  | some root =>
      match style with
      | .anthropic => usage.applyAnthropic root
      | .openaiResponses => usage.applyResponses root
      | .openaiChat => usage.applyChat root

/-- What is parsed is applied; what cannot be parsed is ignored. -/
def applyText (runtime : TapRuntime) (style : UsageStyle) (text : List Char) : FoundUsage :=
  match runtime.parse text with
  | some root => usage.apply style root
  | none => { usage with bad := true }

end FoundUsage

/-! ### Events -/

/-- What was read so far, and the event that is being read. -/
structure UsageReader where
  usage : FoundUsage
  overflow : Bool
  line : List Char
  lineTooLong : Bool
  skipLf : Bool
  data : List (List Char)
  dataBytes : Nat
  eventTooBig : Bool
  deriving DecidableEq

namespace UsageReader

def new : UsageReader where
  usage := ⟨⟨none, 0, 0, 0, 0⟩, false, false⟩
  overflow := false
  line := []
  lineTooLong := false
  skipLf := false
  data := []
  dataBytes := 0
  eventTooBig := false

variable (runtime : TapRuntime) (style : UsageStyle) (reader : UsageReader)

def dispatch : UsageReader :=
  let ready := { reader with data := [], dataBytes := 0, eventTooBig := false }
  if reader.eventTooBig = true ∨ reader.data = [] then ready
  else
    let joined := List.intercalate ['\n'] reader.data
    if joined = "[DONE]".toList then ready
    else { ready with usage := reader.usage.applyText runtime style joined }

/-- The value of a line `data:`. -/
def dataLine (value : List Char) : UsageReader :=
  let size := reader.dataBytes + (value.map unitsOf).sum + 1
  if MAX_EVENT_BYTES < size then
    { reader with dataBytes := size, eventTooBig := true, overflow := true, data := [] }
  else if reader.eventTooBig then { reader with dataBytes := size }
  else { reader with dataBytes := size, data := reader.data ++ [value] }

def endLine : UsageReader :=
  let ended := { reader with line := [], lineTooLong := false }
  if reader.lineTooLong then { ended with eventTooBig := true, overflow := true }
  else if reader.line = [] then ended.dispatch runtime style
  else if "data:".toList.isPrefixOf reader.line then
    match reader.line.drop 5 with
    | ' ' :: value => ended.dataLine value
    | value => ended.dataLine value
  else ended -- comments, event:, id:, retry:

def appendLine (slice : List Char) : UsageReader :=
  if slice = [] ∨ reader.lineTooLong = true then reader
  else if MAX_EVENT_BYTES < (reader.line.map unitsOf).sum + (slice.map unitsOf).sum then
    { reader with lineTooLong := true, line := [] }
  else { reader with line := reader.line ++ slice }

/-- The loop over a text; `slice` is what was read of it since the last line ended. -/
def feedFrom (slice : List Char) (reader : UsageReader) : List Char → UsageReader
  | [] => reader.appendLine slice
  | char :: rest =>
      if reader.skipLf = true ∧ char = '\n' then feedFrom [] { reader with skipLf := false } rest
      else
        let reader := { reader with skipLf := false }
        if char = '\n' ∨ char = '\r' then
          let ended := (reader.appendLine slice).endLine runtime style
          feedFrom [] { ended with skipLf := char = '\r' } rest
        else feedFrom (slice ++ [char]) reader rest

def feedText (text : List Char) : UsageReader := feedFrom runtime style [] reader text

/-- The end of the events: the last one need not be ended by a line. -/
def finish (text : List Char) : UsageReader :=
  ((reader.feedText runtime style text).endLine runtime style).dispatch runtime style

end UsageReader

/-! ### Chunks -/

/-- The state of the tap. -/
structure UsageTap where
  sse : Bool
  sniffing : Bool
  held0 : Bytes
  decoder : Decoder
  parts : List Bytes
  held : Nat
  reader : UsageReader
  deriving DecidableEq

namespace UsageTap

variable (runtime : TapRuntime) (style : UsageStyle) (tap : UsageTap)

def new (contentType : String) : UsageTap where
  sse := includes (runtime.toLowerCase contentType.toList) "text/event-stream"
  sniffing := !includes (runtime.toLowerCase contentType.toList) "text/event-stream" &&
    !includes (runtime.toLowerCase contentType.toList) "json"
  held0 := []
  decoder := .new
  parts := []
  held := 0
  reader := .new

def writeSse (chunk : Bytes) : UsageTap :=
  { tap with
    decoder := (tap.decoder.write chunk).2
    reader := tap.reader.feedText runtime style (tap.decoder.write chunk).1 }

def writeJson (chunk : Bytes) : UsageTap :=
  if tap.reader.overflow then tap
  else if MAX_JSON_BYTES < tap.held + chunk.length then
    { tap with reader := { tap.reader with overflow := true }, parts := [], held := 0 }
  else { tap with parts := tap.parts ++ [chunk], held := tap.held + chunk.length }

def isSpace (byte : UInt8) : Bool := byte = 0x20 || byte = 0x09 || byte = 0x0A || byte = 0x0D

/-- Whether the bytes begin as a stream of events does; `none` while they are too few to tell. -/
def decideSse (body : Bytes) : Option Bool :=
  let head := body.take 6
  if (ascii ":" :: SSE_FIELDS).any (·.isPrefixOf head) then some true
  else if head.length < 6 && SSE_FIELDS.any (head.isPrefixOf ·) then none
  else some false

/-- The bytes to process once the mode is decided; the prefix is held before. -/
def sniff (chunk : Bytes) : UsageTap × Option Bytes :=
  match (tap.held0 ++ chunk).dropWhile isSpace with
  | [] => ({ tap with held0 := [] }, none)
  | byte :: rest =>
      match decideSse (byte :: rest) with
      | none => ({ tap with held0 := byte :: rest }, none)
      | some sse => ({ tap with held0 := [], sniffing := false, sse := sse }, some (byte :: rest))

/-- Bytes in a mode that is decided. -/
def process (chunk : Bytes) : UsageTap :=
  if tap.sse then tap.writeSse runtime style chunk else tap.writeJson chunk

def write (chunk : Bytes) : UsageTap :=
  if tap.sniffing then
    match tap.sniff chunk with
    | (held, none) => held
    | (decided, some rest) => decided.process runtime style rest
  else tap.process runtime style chunk

/-- The tap after it was asked for the result. -/
def asked : UsageTap :=
  if tap.sse then
    { tap with decoder := .new, reader := tap.reader.finish runtime style tap.decoder.flush }
  else if tap.reader.overflow = false ∧ 0 < tap.held ∧ tap.parts ≠ [] then
    { tap with
      parts := []
      reader := { tap.reader with
        usage := tap.reader.usage.applyText runtime style (Utf8.decode tap.parts.flatten) } }
  else tap

def result : UsageTap × UsageCounts :=
  (tap.asked runtime style, (tap.asked runtime style).reader.usage.counts)

/-- Call after the body ends. -/
def status : UsageTap × UsageStatus :=
  let asked := (tap.result runtime style).1
  (asked,
    if asked.reader.overflow then .overflow
    else if asked.reader.usage.found then .ok
    else if asked.reader.usage.bad then .unparseable
    else .none)

inductive Question where
  | result
  | status

/-- The tap after a question. -/
def ask : Question → UsageTap
  | .result => (tap.result runtime style).1
  | .status => (tap.status runtime style).1

end UsageTap

end AiSwitcher.Gateway
