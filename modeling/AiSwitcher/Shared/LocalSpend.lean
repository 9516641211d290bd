/-
This file embeds the synchronous reader of `src/shared/local-spend.ts`: the walk over the session
tree of an identity, the scanners that find the usage records of a file, and the totals over the
records of a period.

Numbers are JavaScript's, so a record holds whatever stands for a number and the arithmetic on it
is a parameter, as are `Date.parse`, the calendar day of a time and the price table.
-/

import AiSwitcher.Library.JsonText
import AiSwitcher.Library.Utf8
import Mathlib.Algebra.Order.Field.Rat
import Mathlib.Data.Rat.Cast.Order

namespace AiSwitcher.LocalSpend

open JavaScript JsonText
open Utf8 (Bytes)

/-- What the reader takes from the platform and from the price table. -/
structure SpendRuntime (Num : Type) where
  number : List Char → Number
  dateParse : Value → Option ℚ
  localDateKey : ℚ → String
  ofValue : Value → Num
  min : Num → Num → Num
  max : Num → Num → Num
  add : Num → Num → Num
  sub : Num → Num → Num
  isFiniteNumber : Num → Bool
  sameModel : Value → Value → Bool
  estimateBedrockTokenCost : (model : Value) → (input output cacheRead cacheWrite : Num) → Option Num
  fallbackCost : (input output cacheRead cacheWrite : Num) → Num

structure UsageRecord (Num : Type) where
  model : Value
  input : Num
  output : Num
  cacheRead : Num
  cacheWrite : Num
  atMs : Option ℚ

/-! ### Values of a parsed line -/

/-- `value[key]` -/
def property (value : Value) (key : String) : Option Value :=
  value.asObject?.bind fun members => member members (codeUnits key.toList)

/-- `value?.[key]` -/
def chained (value : Option Value) (key : String) : Option Value :=
  value.bind fun value => property value key

/-- `value ?? fallback` -/
def orElse (value : Option Value) (fallback : Value) : Value :=
  match value with
  | none => fallback
  | some .null => fallback
  | some value => value

/-- `value === text` -/
def isText (value : Option Value) (text : String) : Bool :=
  (value.bind Value.asString?) = some (codeUnits text.toList)

def isTruthy : Value → Bool
  | .null => false
  | .bool value => value
  | .num value => value ≠ .finite 0
  | .str units => !units.isEmpty
  | .arr _ => true
  | .obj _ => true

def text (value : String) : Value := .str (codeUnits value.toList)

/-- `line.includes(part)` -/
def includes (line : List Char) (part : String) : Bool := line.tails.any part.toList.isPrefixOf

/-! ### Scanners -/

section Reader

variable {Num : Type} (runtime : SpendRuntime Num)

/-- A scanner between two lines: the model of the last turn, and the records so far. -/
structure Scan (Num : Type) where
  model : Value
  records : List (UsageRecord Num)

def Scan.start : Scan Num := ⟨text "unknown", []⟩

def parseTimestamp (raw : Option Value) : Option ℚ := raw.bind runtime.dateParse

def tokens (usage : Value) (key : String) : Num :=
  runtime.ofValue (orElse (property usage key) (.num (.finite 0)))

/-- The record of a `token_count` event. Cached and written tokens are parts of the input. -/
def codexRecord (model parsed usage : Value) : UsageRecord Num :=
  let input := tokens runtime usage "input_tokens"
  let cached := runtime.min (tokens runtime usage "cached_input_tokens") input
  let cacheWrite := runtime.min (tokens runtime usage "cache_write_input_tokens")
    (runtime.sub input cached)
  { model
    input := runtime.max (runtime.ofValue (.num (.finite 0)))
      (runtime.sub (runtime.sub input cached) cacheWrite)
    output := tokens runtime usage "output_tokens"
    cacheRead := cached
    cacheWrite
    atMs := parseTimestamp runtime (property parsed "timestamp") }

/-- One line of a rollout. A line that is parsed is no `null`, as it names an event. -/
def pushCodex (scan : Scan Num) (line : List Char) : Scan Num :=
  if !includes line "token_count" && !includes line "turn_context" then scan
  else
    match parse runtime.number line with
    | none => scan
    | some parsed =>
        let payload := property parsed "payload"
        match isText (property parsed "type") "turn_context",
          (chained payload "model").bind Value.asString? with
        | true, some model => { scan with model := .str model }
        | _, _ =>
            if !isText (property parsed "type") "event_msg" ||
                !isText (chained payload "type") "token_count" then scan
            else
              match (chained (chained payload "info") "last_token_usage").filter isTruthy with
              | none => scan
              | some usage => { scan with
                  records := scan.records ++ [codexRecord runtime scan.model parsed usage] }

/-- The record of an assistant's message. -/
def claudeRecord (parsed usage : Value) : UsageRecord Num where
  model := orElse (chained (property parsed "message") "model") (text "unknown")
  input := tokens runtime usage "input_tokens"
  output := tokens runtime usage "output_tokens"
  cacheRead := tokens runtime usage "cache_read_input_tokens"
  cacheWrite := tokens runtime usage "cache_creation_input_tokens"
  atMs := parseTimestamp runtime (property parsed "timestamp")

def pushClaude (scan : Scan Num) (line : List Char) : Scan Num :=
  if !includes line "\"usage\"" then scan
  else
    match parse runtime.number line with
    | none => scan
    | some parsed =>
        match (chained (property parsed "message") "usage").filter isTruthy with
        | none => scan
        | some usage => { scan with records := scan.records ++ [claudeRecord runtime parsed usage] }

abbrev Scanner (Num : Type) := Scan Num → List Char → Scan Num

/-- The scanner of a tool, and the directory its sessions are in. -/
def scannerOf (toolName : String) : Option (Scanner Num × String) :=
  if toolName = "codex" then some (pushCodex runtime, "sessions")
  else if toolName = "claude" then some (pushClaude runtime, "projects")
  else none

/-- The records of a text, line by line. -/
def recordsOf (scanner : Scanner Num) (text : List Char) : List (UsageRecord Num) :=
  ((Lines.split '\n' text).foldl scanner .start).records

/-! ### The walk -/

structure Stat where
  dev : ℕ
  ino : ℕ
  size : ℕ
  mtimeNs : ℕ
  ctimeNs : ℕ

def Stat.mtimeMs (info : Stat) : ℚ := info.mtimeNs / 1000000

/-- What a path names. Nothing is known of `unknown`; a directory that cannot be read lists
nothing, and a file that cannot be read has no content. -/
inductive Node where
  | unknown
  | file (info : Stat) (content : Option Bytes)
  | directory (entries : List (List Char × Node))

abbrev Entries := List (List Char × Node)

structure File where
  path : List Char
  info : Stat
  content : Option Bytes

/-- The start of a period in local time, and in milliseconds. -/
structure PeriodStart where
  fullYear : ℤ
  month : ℕ
  date : ℕ
  time : ℤ

/-- `/^\d+$/` -/
def isNumeric (segment : List Char) : Bool := !segment.isEmpty && segment.all Char.isDigit

/-- `Number.parseInt(segment, 10)` -/
def parseNumeric (segment : List Char) : ℕ := Nat.ofDigitChars 10 segment 0

/-- `dir.split(/[\\/]/).filter(Boolean)`, the last segment first. -/
def segmentsBack (dir : List Char) : List (List Char) :=
  ((dir.splitOnP fun character => character = '/' || character = '\\').filter (! ·.isEmpty)).reverse

def MAX_SAFE_INTEGER : ℕ := 9007199254740991

def pathYear (dir : List Char) : ℕ :=
  match (segmentsBack dir).find? fun segment => isNumeric segment && segment.length = 4 with
  | some segment => parseNumeric segment
  | none => MAX_SAFE_INTEGER

/-- The months before the month that the last segments name. -/
def yearMonthFrom : Option ℕ → List (List Char) → ℕ
  | _, [] => MAX_SAFE_INTEGER
  | month, segment :: rest =>
      if month.isNone && isNumeric segment && segment.length ≤ 2 then
        yearMonthFrom (some (parseNumeric segment)) rest
      else if isNumeric segment && segment.length = 4 then
        match month with
        | some month => parseNumeric segment * 12 + month
        | none => MAX_SAFE_INTEGER
      else yearMonthFrom month rest

def pathYearMonth (dir : List Char) : ℕ := yearMonthFrom none (segmentsBack dir)

/-- Whether a directory is skipped because of the date in its path. -/
def isDatePruned (periodStart : PeriodStart) (dir entry : List Char) (level : ℕ) : Bool :=
  isNumeric entry &&
    match level with
    | 1 => parseNumeric entry < periodStart.fullYear
    | 2 => pathYear dir ≤ periodStart.fullYear && parseNumeric entry < periodStart.month
    | 3 => pathYearMonth dir ≤ periodStart.fullYear * 12 + periodStart.month &&
        parseNumeric entry < periodStart.date
    | _ => false

/-- `join(dir, entry)` of a name that a directory lists. -/
def join (dir entry : List Char) : List Char := dir ++ '/' :: entry

def isFresh (periodStart : PeriodStart) (info : Stat) : Bool := periodStart.time ≤ info.mtimeMs

def isSessionLog (entry : List Char) : Bool := ".jsonl".toList.isSuffixOf entry

mutual

/-- An entry that is not skipped; `level` is its own level. -/
def walkNode (periodStart : PeriodStart) (prunePathDate : Bool) (dir entry : List Char) (level : ℕ) :
    Node → List File
  | .unknown => []
  | .file info content =>
      if isFresh periodStart info && isSessionLog entry then [⟨join dir entry, info, content⟩]
      else []
  | .directory entries => walk periodStart prunePathDate (join dir entry) level entries

/-- The entries of a directory, in the order it lists them. -/
def walk (periodStart : PeriodStart) (prunePathDate : Bool) (dir : List Char) (depth : ℕ) :
    Entries → List File
  | [] => []
  | (entry, node) :: rest =>
      (if prunePathDate && isDatePruned periodStart dir entry (depth + 1) then []
        else walkNode periodStart prunePathDate dir entry (depth + 1) node) ++
        walk periodStart prunePathDate dir depth rest

end

/-- The files of a root that can be read. -/
def listRecentFiles (periodStart : PeriodStart) (prunePathDate : Bool) (root : List Char)
    (entries : Entries) : List File :=
  walk periodStart prunePathDate root 0 entries

/-! ### Totals -/

/-- Whether a record counts: it has no timestamp, or one in the period. -/
def isCounted (periodStartMs : ℤ) (usage : UsageRecord Num) : Bool :=
  usage.atMs.all fun atMs => (periodStartMs : ℚ) ≤ atMs

def filterPeriod (records : List (UsageRecord Num)) (periodStartMs : ℤ) : List (UsageRecord Num) :=
  records.filter (isCounted periodStartMs)

structure LocalSpendModelTotals (Num : Type) where
  model : Value
  input : Num
  output : Num
  cacheRead : Num
  cacheWrite : Num
  messageCount : ℕ
  usd : Num

structure LocalSpendRead (Num : Type) where
  usd : Num
  unknownModelUsd : Num
  filesRead : ℕ
  notes : List String
  messages : ℕ
  input : Num
  output : Num
  cacheRead : Num
  cacheWrite : Num
  models : List (LocalSpendModelTotals Num)
  dailyTokens : Members Num
  firstMs : Option ℚ
  lastMs : Option ℚ
  usdSince : Option Num

def zero : Num := runtime.ofValue (.num (.finite 0))

def emptyRead (notes : List String) : LocalSpendRead Num where
  usd := zero runtime
  unknownModelUsd := zero runtime
  filesRead := 0
  notes
  messages := 0
  input := zero runtime
  output := zero runtime
  cacheRead := zero runtime
  cacheWrite := zero runtime
  models := []
  dailyTokens := []
  firstMs := none
  lastMs := none
  usdSince := none

/-- What a record costs, and whether its model has a price. -/
def costOf (usage : UsageRecord Num) : Num × Bool :=
  match runtime.estimateBedrockTokenCost usage.model usage.input usage.output usage.cacheRead
    usage.cacheWrite with
  | some priced => (priced, true)
  | none =>
      (runtime.fallbackCost usage.input usage.output usage.cacheRead usage.cacheWrite, false)

/-- The dollars of the records, and those of them for models without a price. -/
def valueRecords (records : List (UsageRecord Num)) : Num × Num :=
  records.foldl (fun (usd, unknownModelUsd) usage =>
    let cost := costOf runtime usage
    (runtime.add usd cost.1, if cost.2 then unknownModelUsd else runtime.add unknownModelUsd cost.1))
    (zero runtime, zero runtime)

def addToBucket (usage : UsageRecord Num) (bucket : LocalSpendModelTotals Num) :
    LocalSpendModelTotals Num where
  model := bucket.model
  input := runtime.add bucket.input usage.input
  output := runtime.add bucket.output usage.output
  cacheRead := runtime.add bucket.cacheRead usage.cacheRead
  cacheWrite := runtime.add bucket.cacheWrite usage.cacheWrite
  messageCount := bucket.messageCount + 1
  usd := runtime.add bucket.usd (costOf runtime usage).1

/-- The buckets in the order in which their models first came. -/
def addToModels (usage : UsageRecord Num) :
    List (LocalSpendModelTotals Num) → List (LocalSpendModelTotals Num)
  | [] => [addToBucket runtime usage ⟨usage.model, zero runtime, zero runtime, zero runtime,
      zero runtime, 0, zero runtime⟩]
  | bucket :: rest =>
      if runtime.sameModel bucket.model usage.model then addToBucket runtime usage bucket :: rest
      else bucket :: addToModels usage rest

def addToDays (usage : UsageRecord Num) (dailyTokens : Members Num) : Members Num :=
  match usage.atMs with
  | none => dailyTokens
  | some atMs =>
      let day := runtime.localDateKey atMs
      dailyTokens.set day (runtime.add (runtime.add ((dailyTokens.get day).getD (zero runtime))
        usage.input) usage.output)

/-- One record into the running totals. -/
def addRecord (read : LocalSpendRead Num) (usage : UsageRecord Num) : LocalSpendRead Num :=
  { read with
    messages := read.messages + 1
    input := runtime.add read.input usage.input
    output := runtime.add read.output usage.output
    cacheRead := runtime.add read.cacheRead usage.cacheRead
    cacheWrite := runtime.add read.cacheWrite usage.cacheWrite
    models := addToModels runtime usage read.models
    dailyTokens := addToDays runtime usage read.dailyTokens
    firstMs := usage.atMs.elim read.firstMs fun atMs => some (read.firstMs.elim atMs (Min.min · atMs))
    lastMs := usage.atMs.elim read.lastMs fun atMs => some (read.lastMs.elim atMs (Max.max · atMs)) }

def reduceLocalSpendRead (records : List (UsageRecord Num)) (filesRead : ℕ) (usdSinceMs : Option ℤ) :
    LocalSpendRead Num :=
  let valued := valueRecords runtime records
  { records.foldl (addRecord runtime) (emptyRead runtime []) with
    usd := valued.1
    unknownModelUsd := valued.2
    filesRead
    usdSince := usdSinceMs.map fun since => (valueRecords runtime (filterPeriod records since)).1 }

/-! ### The reader -/

/-- `readFileSync(path, "utf8")`; a byte order mark stays. -/
def readText (file : File) : Option (List Char) := file.content.map (Utf8.decodeFrom .start)

/-- The records of a file that count; a file that cannot be read has none. -/
def periodRecords (scanner : Scanner Num) (periodStart : PeriodStart) (file : File) :
    List (UsageRecord Num) :=
  match readText file with
  | none => []
  | some text => filterPeriod (recordsOf scanner text) periodStart.time

/-- The records that are aggregated, in their order. -/
def aggregated (scanner : Scanner Num) (periodStart : PeriodStart) (files : List File) :
    List (UsageRecord Num) :=
  files.flatMap (periodRecords scanner periodStart)

/-- `sessions` is what the directory `rootName` of the configuration lists, if it can be read. -/
def readIdentityLocalSpend (toolName : String) (configDir : List Char) (periodStart : PeriodStart)
    (sessions : Option Entries) : LocalSpendRead Num :=
  match scannerOf runtime toolName with
  | none => emptyRead runtime ["no local session reader for tool \"" ++ toolName ++ "\""]
  | some (scanner, rootName) =>
      match sessions with
      | none => emptyRead runtime []
      | some entries =>
          let files := listRecentFiles periodStart (toolName = "codex")
            (join configDir rootName.toList) entries
          reduceLocalSpendRead runtime (aggregated scanner periodStart files) files.length none

end Reader

end AiSwitcher.LocalSpend
