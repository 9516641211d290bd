/-
This file embeds the asynchronous reader of `src/shared/local-spend.ts`: it reads a file in chunks,
pushes its lines as they become complete, and keeps the records of files that did not change.

A record cache is kept here as it is read back. Numbers that JSON cannot write are none that
`validUsageRecord` accepts, so a cache is valid as it was written exactly if it is as it is read;
that a negative zero is read back as zero changes no total.
-/

import AiSwitcher.Library.CodeUnits
import AiSwitcher.Library.TextDecoder
import AiSwitcher.Shared.LocalSpend

namespace AiSwitcher.LocalSpend

open JavaScript JsonText
open Utf8 (Bytes Decoder)

/-! ### Chunks -/

def FILE_TEXT_PIECE_UNITS : ℕ := 262144

/-- The pieces a decoder yields for the buffers of a stream, and for the end of it. -/
def fileTextChunksFrom (decoder : Decoder) : List Bytes → List Units
  | [] =>
      let tail := decoder.flush
      if tail.isEmpty then [] else [codeUnits tail]
  | blob :: rest =>
      let read := decoder.write blob
      pieces FILE_TEXT_PIECE_UNITS (codeUnits read.1) ++ fileTextChunksFrom read.2 rest

def fileTextChunks (blobs : List Bytes) : List Units := fileTextChunksFrom .new blobs

section Reader

variable {Num : Type} (runtime : SpendRuntime Num)

/-- `lineScanner.push(line)` -/
def pushUnits (scanner : Scanner Num) (scan : Scan Num) (line : Units) : Scan Num :=
  scanner scan (charsOf line)

/-- One chunk goes on what is left; every complete line is pushed, and the rest is kept. -/
def pushChunk (scanner : Scanner Num) (state : Scan Num × Units) (chunk : Units) :
    Scan Num × Units :=
  let rest := state.2 ++ chunk
  ((Lines.records newlineUnit rest).foldl (pushUnits scanner) state.1,
    Lines.unfinished newlineUnit rest)

def collectRecordsFromChunks (scanner : Scanner Num) (chunks : List Units) :
    List (UsageRecord Num) :=
  let last := chunks.foldl (pushChunk scanner) (.start, [])
  (pushUnits scanner last.1 last.2).records

/-! ### The record cache -/

/-- The numbers of a file's identity and state, joined by colons. -/
def fileFingerprint (info : Stat) : List Char :=
  List.intercalate [':'] ([info.dev, info.ino, info.size, info.mtimeNs, info.ctimeNs].map
    (Nat.toDigits 10))

structure CachedFile (Num : Type) where
  fingerprint : List Char
  records : List (UsageRecord Num)

structure RecordCache (Num : Type) where
  tool : String
  files : Members (CachedFile Num)

def validUsageRecord (usage : UsageRecord Num) : Bool :=
  usage.model.asString?.isSome &&
    [usage.input, usage.output, usage.cacheRead, usage.cacheWrite].all runtime.isFiniteNumber

/-- An unreadable or foreign cache is an empty one. -/
def readRecordCache (stored : Option (RecordCache Num)) (tool : String) : RecordCache Num :=
  match stored with
  | none => ⟨tool, []⟩
  | some value =>
      if value.tool = tool && value.files.all fun entry => entry.2.records.all (validUsageRecord runtime)
      then value
      else ⟨tool, []⟩

/-! ### The reader -/

/-- What is passed to a call, and how the platform cuts each file into buffers. -/
structure AsyncCall where
  toolName : String
  configDir : List Char
  periodStart : PeriodStart
  sessions : Option Entries
  usdSinceMs : Option ℤ
  blobs : File → List Bytes

/-- A call between two files. -/
structure Reading (Num : Type) where
  records : List (UsageRecord Num)
  nextFiles : Members (CachedFile Num)
  cacheChanged : Bool

/-- The cached records of a file that did not change. -/
def cachedRecords (cache : Option (RecordCache Num)) (file : File) :
    Option (List (UsageRecord Num)) :=
  ((cache.bind fun cache => cache.files.get (.ofList file.path)).filter fun entry =>
    entry.fingerprint = fileFingerprint file.info).map CachedFile.records

/-- The records of a file, from the cache or from its chunks; none if it cannot be read. -/
def fileRecords (scanner : Scanner Num) (cache : Option (RecordCache Num)) (blobs : List Bytes)
    (file : File) : Option (List (UsageRecord Num)) :=
  (cachedRecords cache file).or
    (file.content.map fun _ => collectRecordsFromChunks scanner (fileTextChunks blobs))

def visitFile (scanner : Scanner Num) (call : AsyncCall) (cache : Option (RecordCache Num))
    (reading : Reading Num) (file : File) : Reading Num :=
  match fileRecords scanner cache (call.blobs file) file with
  | none => reading
  | some found =>
      { records := reading.records ++ filterPeriod found call.periodStart.time
        nextFiles :=
          if cache.isSome then
            reading.nextFiles.set (.ofList file.path) ⟨fileFingerprint file.info, found⟩
          else reading.nextFiles
        cacheChanged := reading.cacheChanged || (cachedRecords cache file).isNone }

def AsyncCall.files (call : AsyncCall) (rootName : String) (entries : Entries) : List File :=
  listRecentFiles call.periodStart (call.toolName = "codex") (join call.configDir rootName.toList)
    entries

def readFiles (scanner : Scanner Num) (call : AsyncCall) (cache : Option (RecordCache Num))
    (files : List File) : Reading Num :=
  files.foldl (visitFile scanner call cache) ⟨[], [], cache.isNone⟩

/-- The spend, and the cache that is written. `stored` is what the cache file holds, if the call
has one. -/
def readIdentityLocalSpendAsync (call : AsyncCall) (stored : Option (Option (RecordCache Num))) :
    LocalSpendRead Num × Option (RecordCache Num) :=
  match scannerOf runtime call.toolName with
  | none =>
      (emptyRead runtime ["no local session reader for tool \"" ++ call.toolName ++ "\""], none)
  | some (scanner, rootName) =>
      match call.sessions with
      | none => (emptyRead runtime [], none)
      | some entries =>
          let files := call.files rootName entries
          let cache := stored.map (readRecordCache runtime · call.toolName)
          let reading := readFiles scanner call cache files
          let cacheChanged := reading.cacheChanged ||
            cache.any fun cache => cache.files.length ≠ reading.nextFiles.length
          (reduceLocalSpendRead runtime reading.records files.length call.usdSinceMs,
            if stored.isSome && cacheChanged then some ⟨call.toolName, reading.nextFiles⟩ else none)

/-- What the cache file holds after calls; a write may fail, and then changes nothing. -/
def cacheAfter : List (AsyncCall × Bool) → Option (RecordCache Num)
  | [] => none
  | (call, writes) :: earlier =>
      match (readIdentityLocalSpendAsync runtime call (some (cacheAfter earlier))).2, writes with
      | some written, true => some written
      | _, _ => cacheAfter earlier

end Reader

end AiSwitcher.LocalSpend
