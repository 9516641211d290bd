/-
This file embeds `aggregateUsageResults` of `src/cli/usage/run.ts`: the rows of one upstream
provider and one identity become a single row, whichever client they come from. A row of a client
that works through another one is left out when the other one reports the same identity itself, and
the failures of sources that name no provider stay apart.

The names of identities have no NUL, so the texts that the code makes of a provider or a source and
a name are as distinct as the pairs. A provider with the name of an inherited member has no text as
its canonical form, and one that is no text has no canonical form at all: the code fails there.
-/

import AiSwitcher.Library.Grouping
import AiSwitcher.Library.Lines
import AiSwitcher.Library.Tally
import AiSwitcher.Shared.SpendValue
import Mathlib.Data.NNRat.Defs

namespace AiSwitcher.UsageRows

open JavaScript.JsonText (Units)
open JavaScript.LowerCase
open SpendValue (inheritedMembers unitsOf)

/-! ### Providers -/

/-- A text, or a member that every object has. -/
inductive Provider where
  | text (units : Units)
  | inherited (name : String)
  deriving DecidableEq

/-- How the platform lowers letters and prints inherited members. -/
structure UsageRuntime where
  unicode : UnicodeCase
  printMember : String → Units

def providerAliases : List (String × String) :=
  [("anthropic", "anthropic"), ("claude-cli", "anthropic"), ("openai", "openai"),
    ("openai-codex", "openai"), ("codex-cli", "openai"), ("xai", "xai"), ("grok", "xai"),
    ("kimi", "kimi"), ("kimi-coding", "kimi"), ("local-kimi", "kimi"), ("moonshot", "kimi"),
    ("zai", "zai"), ("zai_coding_plan", "zai"), ("zai-coding-plan", "zai"),
    ("alibaba", "alibaba"), ("alibaba-plan", "alibaba"), ("alibaba_token_plan", "alibaba"),
    ("alibaba-token-plan", "alibaba"), ("opencode-go", "opencode-go"),
    ("opencode_go", "opencode-go"), ("aws-bedrock", "aws-bedrock"),
    ("aws_bedrock", "aws-bedrock"), ("party-cli", "unattributed")]

def unattributed : Provider := .text (unitsOf "unattributed")

/-- The code unit of `,`. -/
def comma : UInt16 := 44

variable (runtime : UsageRuntime)

def Provider.print : Provider → Units
  | .text units => units
  | .inherited name => runtime.printMember name

/-- A provider without a comma. -/
def canonicalPart (provider : Units) : Provider :=
  let normalised := toLowerCase runtime.unicode (trimUnits provider)
  if normalised = [] then unattributed
  else match providerAliases.find? fun entry => unitsOf entry.1 == normalised with
    | some entry => .text (unitsOf entry.2)
    | none => match inheritedMembers.find? fun name => unitsOf name == normalised with
      | some name => .inherited name
      | none => .text normalised

/-- The parts are lowered already, and no lower case has a comma in it, so none of them is split
again. -/
def canonicalUsageProvider : Provider → Option Provider
  | .inherited _ => none
  | .text provider =>
      let normalised := toLowerCase runtime.unicode (trimUnits provider)
      if comma ∈ normalised then
        let parts := (((Lines.split comma normalised).map (canonicalPart runtime)).eraseDups.filter
          (· ≠ unattributed)).map (Provider.print runtime)
        let sorted := parts.mergeSort fun first second => !decide (second < first)
        some (if sorted = [] then unattributed
          else .text (List.intercalate (unitsOf ", ") sorted))
      else some (canonicalPart runtime provider)

/-! ### Rows -/

/-- The name of an identity. -/
abbrev IdentityName := String

inductive ToolName where
  | claude
  | codex
  | grok
  | kimi
  | zai
  | ali
  | opencode
  | pi
  deriving DecidableEq

/-- Input, output, cache read, cache write, messages and cost. -/
abbrev Figures := Fin 6 → ℚ≥0

structure TokscaleReport (Entry : Type) where
  entries : List Entry
  totalInput : ℚ≥0
  totalOutput : ℚ≥0
  totalCacheRead : ℚ≥0
  totalCacheWrite : ℚ≥0
  totalMessages : ℚ≥0
  totalCost : ℚ≥0

structure OverageInfo where
  active : Bool
  label : String
  spentUsd : Option ℚ

structure RealCostInfo where
  label : String
  monthToDateUsd : Option ℚ

structure DateSpan where
  firstMs : ℤ
  lastMs : ℤ
  deriving DecidableEq

/-- An object whose keys are days. -/
structure ByDay (Amount : Type) where
  days : List (String × Amount)
  distinct : (days.map Prod.fst).Nodup

/-- `rest` is what only a row that was not merged still has. -/
structure UsageResult (Entry Rest : Type) where
  provider : Provider
  identity : IdentityName
  sourceTool : Option ToolName
  nativeCoverageTool : Option ToolName
  sourceOnlyError : Bool
  report : Option (TokscaleReport Entry)
  error : Option String
  extraCost : Option OverageInfo
  realCost : Option RealCostInfo
  dateSpan : Option DateSpan
  dailyUsage : Option (ByDay ℚ≥0)
  dailyTotals : Option (ByDay Figures)
  pending : Bool
  rest : Option Rest
  onlyError : sourceOnlyError = true → report = none ∧ nativeCoverageTool = none

variable {Entry Rest : Type}

/-! ### Merging two rows -/

def mergeReports (first second : Option (TokscaleReport Entry)) : Option (TokscaleReport Entry) :=
  match first, second with
  | none, second => second
  | first, none => first
  | some first, some second => some
      { entries := first.entries ++ second.entries
        totalInput := first.totalInput + second.totalInput
        totalOutput := first.totalOutput + second.totalOutput
        totalCacheRead := first.totalCacheRead + second.totalCacheRead
        totalCacheWrite := first.totalCacheWrite + second.totalCacheWrite
        totalMessages := first.totalMessages + second.totalMessages
        totalCost := first.totalCost + second.totalCost }

def mergeExtraCost (first second : Option OverageInfo) : Option OverageInfo :=
  match first, second with
  | none, second => second
  | first, none => first
  | some first, some second => some <|
      if first.active != second.active then if first.active then first else second
      else if first.spentUsd.isSome || second.spentUsd.isSome then
        if second.spentUsd.getD (-1) ≤ first.spentUsd.getD (-1) then first else second
      else first

def mergeRealCost (first second : Option RealCostInfo) : Option RealCostInfo :=
  match first, second with
  | none, second => second
  | first, none => first
  | some first, some second => some <|
      if second.monthToDateUsd.getD (-1) ≤ first.monthToDateUsd.getD (-1) then first else second

def ByDay.empty {Amount : Type} : ByDay Amount := ⟨[], List.nodup_nil⟩

/-- The days of one object added to another one. -/
def ByDay.addAll {Amount : Type} [AddCommMonoid Amount] (into from_ : ByDay Amount) :
    ByDay Amount where
  days := Tally.addAll into.days from_.days
  distinct := Tally.nodup_keys_addAll into.distinct

def mergeDailyTotals (first second : Option (ByDay Figures)) : Option (ByDay Figures) :=
  if first.isNone && second.isNone then none
  else some ((ByDay.empty.addAll (first.getD .empty)).addAll (second.getD .empty))

/-- Two errors, one of them once, an empty one not at all. -/
def mergeErrors (first second : Option String) : Option String :=
  match ([first, second].filterMap id).filter (· ≠ "") |>.eraseDups with
  | [] => none
  | errors => some (String.intercalate "; " errors)

def mergeSpans (first second : Option DateSpan) : Option DateSpan :=
  match first, second with
  | none, second => second
  | first, none => first
  | some first, some second =>
      some ⟨min first.firstMs second.firstMs, max first.lastMs second.lastMs⟩

/-- A row of a group joined with what the group has. -/
def mergeRow (provider : Provider) (existing result : UsageResult Entry Rest) :
    UsageResult Entry Rest :=
  let dailyUsage := (existing.dailyUsage.getD .empty).addAll (result.dailyUsage.getD .empty)
  { provider
    identity := existing.identity
    sourceTool := none
    nativeCoverageTool := none
    sourceOnlyError := false
    report := mergeReports existing.report result.report
    error := mergeErrors existing.error result.error
    extraCost := mergeExtraCost existing.extraCost result.extraCost
    realCost := mergeRealCost existing.realCost result.realCost
    dateSpan := mergeSpans existing.dateSpan result.dateSpan
    dailyUsage := if dailyUsage.days = [] then none else some dailyUsage
    dailyTotals :=
      if existing.dailyTotals.isSome && result.dailyTotals.isSome then
        mergeDailyTotals existing.dailyTotals result.dailyTotals
      else none
    pending := existing.pending && result.pending
    rest := none
    onlyError := fun isFailure => Bool.noConfusion isFailure }

/-! ### Aggregation -/

/-- The identities that a native client reports itself. -/
def nativeCoverage (results : List (UsageResult Entry Rest)) : List (ToolName × IdentityName) :=
  results.filterMap fun result => match result.sourceTool with
    | some tool =>
        if result.report.isSome && (tool = .claude || tool = .codex) then
          some (tool, result.identity)
        else none
    | none => none

/-- What a row came through is reported natively. -/
def isCovered (coverage : List (ToolName × IdentityName)) (result : UsageResult Entry Rest) :
    Bool :=
  result.nativeCoverageTool.any fun tool => coverage.contains (tool, result.identity)

inductive RowKey where
  | sourceOnlyError (sourceTool : Option ToolName) (identity : IdentityName)
  | group (provider : Provider) (identity : IdentityName)
  deriving DecidableEq

/-- What a key has when its first row arrives. -/
def startRow (key : RowKey) (result : UsageResult Entry Rest) : UsageResult Entry Rest :=
  match key with
  | .sourceOnlyError _ _ => result
  | .group provider _ => { result with provider }

/-- What a key has when another row arrives. -/
def joinRow (key : RowKey) (existing result : UsageResult Entry Rest) : UsageResult Entry Rest :=
  match key with
  | .sourceOnlyError _ _ => result
  | .group provider _ => mergeRow provider existing result

/-- Where a row that is not left out goes. -/
def rowKey (result : UsageResult Entry Rest) : Option RowKey :=
  if result.sourceOnlyError then some (.sourceOnlyError result.sourceTool result.identity)
  else (canonicalUsageProvider runtime result.provider).map (.group · result.identity)

/-- The body of the loop. -/
def addResult (coverage : List (ToolName × IdentityName))
    (grouped : List (RowKey × UsageResult Entry Rest)) (result : UsageResult Entry Rest) :
    Option (List (RowKey × UsageResult Entry Rest)) :=
  if isCovered coverage result then some grouped
  else (rowKey runtime result).map fun key => Grouping.put startRow joinRow grouped (key, result)

def aggregateUsageResults (results : List (UsageResult Entry Rest)) :
    Option (List (UsageResult Entry Rest)) :=
  (results.foldlM (addResult runtime (nativeCoverage results)) []).map fun grouped =>
    grouped.map Prod.snd

end AiSwitcher.UsageRows
