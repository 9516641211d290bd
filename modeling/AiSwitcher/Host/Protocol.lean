/-
This file models the private framing between two hosts: a header as JSON behind its length, and a
payload whose length the header gives. Bytes arrive in chunks; what a read leaves of a chunk
is kept for the next read of the same reader.

`JSON.parse` and `JSON.stringify` are those of the library; how numbers are read and written is
a parameter.
-/

import AiSwitcher.Library.Control
import AiSwitcher.Library.JsonWriting
import AiSwitcher.Library.Utf8

namespace AiSwitcher.HostProtocol

open JavaScript JsonText Utf8

def MAX_HEADER_BYTES : Nat := 64 * 1024

def MAX_HOST_PAYLOAD_BYTES : Nat := 64 * 1024 * 1024

/-- How the platform reads and writes numbers. -/
structure Numerals where
  read : List Char → Number
  write : Number → List Char

/-! ### Frames -/

/-- A length as four bytes, the highest first. -/
def lengthPrefix (length : Nat) : Bytes :=
  [.ofNat (length / 0x1000000 % 256), .ofNat (length / 0x10000 % 256),
    .ofNat (length / 0x100 % 256), .ofNat (length % 256)]

def prefixLength (bytes : Bytes) : Nat := bytes.foldl (fun length byte => length * 256 + byte.toNat) 0

def encodeJsonFrame (numerals : Numerals) (value : Value) : Except String Bytes := do
  let body := encode (JsonText.stringify numerals.write value)
  ensure (body.length ≤ MAX_HEADER_BYTES) "host protocol header exceeds the size limit"
  return lengthPrefix body.length ++ body

/-- A reader: the bytes kept of a chunk, and the chunks that are still to come. -/
structure Reader where
  pending : Bytes
  chunks : List Bytes
  deriving DecidableEq

/-- Reads on from `chunk`. An empty chunk counts as the end of the stream. -/
def readChunks (missing : Nat) (chunk : Bytes) (chunks : List Bytes) :
    Except String (Bytes × Reader) :=
  if missing ≤ chunk.length then .ok (chunk.take missing, ⟨chunk.drop missing, chunks⟩)
  else match chunks with
    | [] => .error "truncated host protocol stream"
    | next :: rest =>
        if next.isEmpty then .error "truncated host protocol stream"
        else (readChunks (missing - chunk.length) next rest).map fun read =>
          (chunk ++ read.1, read.2)

def readExact (reader : Reader) (length : Nat) : Except String (Bytes × Reader) := do
  ensure (length ≤ MAX_HOST_PAYLOAD_BYTES) "host protocol frame length is out of range"
  readChunks length reader.pending reader.chunks

def readJsonFrame (numerals : Numerals) (reader : Reader) : Except String (Value × Reader) := do
  let (first, reader) ← readExact reader 4
  ensure (prefixLength first ≤ MAX_HEADER_BYTES) "host protocol header exceeds the size limit"
  let (bytes, reader) ← readExact reader (prefixLength first)
  match (decodeFatal bytes).bind (parse numerals.read) with
  | some value => return (value, reader)
  | none => .error "invalid host protocol JSON frame"

/-- Nothing is kept, and the next chunk, if there is one, has no bytes. -/
def assertEnd (reader : Reader) : Except String Unit := do
  ensure reader.pending.isEmpty "unexpected trailing host response bytes"
  ensure ((reader.chunks.head?.getD []).isEmpty) "unexpected trailing host response bytes"

/-! ### Fields of a header -/

def key (name : String) : Units := codeUnits name.toList

/-- `Object.keys` and the members of an object; an array has its indices as keys. -/
def fieldsOf : Value → Option (List (Units × Value))
  | .obj members => some members
  | .arr items => some (items.zipIdx.map fun item => (key (toString item.2), item.1))
  | _ => none

def isVersion : Option Value → Bool
  | some (.num number) => number = .finite 1
  | _ => false

/-- A field that is a length within the limit. -/
def payloadLength : Option Value → Option Nat
  | some (.num (.finite number)) =>
      if number.den = 1 ∧ 0 ≤ number.num ∧ number.num ≤ MAX_HOST_PAYLOAD_BYTES then
        some number.num.toNat
      else none
  | _ => none

def lengthField (length : Nat) : Value := .num (.finite length)

/-! ### Requests -/

inductive HostOperation where
  | capabilities
  | exportSnapshot
  | importLogs
  | previewConfig
  deriving DecidableEq

def HostOperation.text : HostOperation → String
  | .capabilities => "capabilities"
  | .exportSnapshot => "exportSnapshot"
  | .importLogs => "importLogs"
  | .previewConfig => "previewConfig"

def HostOperation.all : List HostOperation :=
  [.capabilities, .exportSnapshot, .importLogs, .previewConfig]

structure HostCall where
  operation : HostOperation
  payload : Option Bytes
  preview : Option Value

def HostCall.bytes (call : HostCall) : Bytes := call.payload.getD []

def requestFields (call : HostCall) : List (Units × Value) :=
  [(key "version", .num (.finite 1)), (key "operation", .str (key call.operation.text)),
    (key "payloadBytes", lengthField call.bytes.length)] ++
      call.preview.toList.map fun preview => (key "preview", preview)

/-- The header of a call. -/
def requestValue (call : HostCall) : Value := .obj (requestFields call)

def requestHeader (numerals : Numerals) (call : HostCall) : Except String Bytes := do
  ensure (call.bytes.length ≤ MAX_HOST_PAYLOAD_BYTES)
    "host request payload exceeds the protocol limit"
  ensure (call.operation = .importLogs || call.bytes.isEmpty) "unexpected host request payload"
  ensure (call.operation = .previewConfig || call.preview.isNone) "unexpected host preview data"
  encodeJsonFrame numerals (requestValue call)

/-- The payload that follows a header. -/
def readPayload (reader : Reader) (length : Nat) : Except String (Bytes × Reader) :=
  if length = 0 then .ok ([], reader) else readExact reader length

def readRequest (numerals : Numerals) (reader : Reader) :
    Except String ((Value × Bytes) × Reader) := do
  let (value, reader) ← readJsonFrame numerals reader
  match fieldsOf value with
  | none => .error "invalid host protocol request"
  | some fields =>
      ensure (fields.all fun field =>
        field.1 ∈ [key "version", key "operation", key "payloadBytes", key "preview"])
        "unknown host protocol request field"
      let operation := (member fields (key "operation")).bind Value.asString?
      ensure (operation = some (key "previewConfig") || (member fields (key "preview")).isNone)
        "unexpected host protocol preview field"
      match payloadLength (member fields (key "payloadBytes")) with
      | none => .error "invalid host protocol request fields"
      | some length =>
          ensure (isVersion (member fields (key "version")) &&
            HostOperation.all.any fun known => operation = some (key known.text))
            "invalid host protocol request fields"
          ensure (operation = some (key "importLogs") || length = 0)
            "unexpected host protocol payload"
          let (payload, reader) ← readPayload reader length
          return ((value, payload), reader)

/-- What a host does before it answers: the request is read, and nothing may follow. -/
def acceptRequest (numerals : Numerals) (reader : Reader) : Except String (Value × Bytes) := do
  let (request, reader) ← readRequest numerals reader
  assertEnd reader
  return request

/-! ### Responses -/

structure HostResponse where
  ok : Bool
  payloadBytes : Nat
  result : Option Value
  error : Option Units

def responseFields (response : HostResponse) : List (Units × Value) :=
  [(key "version", .num (.finite 1)), (key "ok", .bool response.ok),
    (key "payloadBytes", lengthField response.payloadBytes)] ++
      (response.result.toList.map fun result => (key "result", result)) ++
      response.error.toList.map fun error => (key "error", .str error)

def responseHeader (response : HostResponse) : Value := .obj (responseFields response)

def asBool? : Option Value → Option Bool
  | some (.bool value) => some value
  | _ => none

def readResult (numerals : Numerals) (reader : Reader) : Except String (Value × Bytes) := do
  let (value, reader) ← readJsonFrame numerals reader
  match fieldsOf value with
  | none => .error "invalid host response"
  | some fields =>
      ensure (fields.all fun field => field.1 ∈
        [key "version", key "ok", key "payloadBytes", key "error", key "result"])
        "unknown host response field"
      let error := member fields (key "error")
      match asBool? (member fields (key "ok")),
          payloadLength (member fields (key "payloadBytes")) with
      | some ok, some length =>
          ensure (isVersion (member fields (key "version")) &&
            if ok then error.isNone else length = 0 && (error.bind Value.asString?).isSome)
            "invalid host response fields"
          let (payload, reader) ← readPayload reader length
          assertEnd reader
          return (value, payload)
      | _, _ => .error "invalid host response fields"

end AiSwitcher.HostProtocol
