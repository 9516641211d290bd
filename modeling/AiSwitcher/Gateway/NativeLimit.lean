/-
This file models the answer a client gets when no member has capacity left, and proves when it
says that capacity returns (`native-limit.ts`). The windows of a reading are squeezed into two
slots, the first of each slot staying. A member is back once the windows at or over the reserve
have reset; with none over it, the busiest window decides. Resets in the past are stale and
ignored.

What is proved leaves out the readings that the two slots cannot hold.
-/

import Mathlib.Algebra.Order.Ring.Unbundled.Rat
import Mathlib.Data.List.MinMax
import Mathlib.Data.Rat.Floor
import Mathlib.Order.WithBot
import AiSwitcher.Library.Json
import AiSwitcher.Library.Pattern
import AiSwitcher.Library.Text

namespace AiSwitcher.Gateway.NativeLimit

open JavaScript

/-! ### Readings -/

/-- The place of a number among the numbers. -/
def rank : Number → WithBot (WithTop ℚ)
  | .infinite true => ⊥
  | .finite value => ((value : WithTop ℚ) : WithBot (WithTop ℚ))
  | .infinite false => ((⊤ : WithTop ℚ) : WithBot (WithTop ℚ))

theorem rank_injective : Function.Injective rank := by
  intro left right same
  cases left with
  | finite left =>
    cases right with
    | finite right => simpa [rank] using same
    | infinite negative => cases negative <;> simp [rank] at same
  | infinite negative =>
    cases right with
    | finite right => cases negative <;> simp [rank] at same
    | infinite other => cases negative <;> cases other <;> simp [rank] at same ⊢

instance : LinearOrder Number := LinearOrder.lift' rank rank_injective

/-- A window of a reading. -/
structure UsageWindow where
  label : String
  utilization : Number
  resetsAt : Option String
  deriving DecidableEq

/-- What is read of a member's usage. -/
structure PoolUsage where
  windows : List UsageWindow
  deriving DecidableEq

/-- The functions of the language that the readings go through: `Number` where it is finite and
`Date.parse` where it is a date. -/
structure LimitRuntime where
  toLowerCase : String → String
  toNumber : String → Option ℚ
  parseDate : String → Option ℤ

inductive LimitSlot where
  | short
  | long
  deriving DecidableEq

structure LimitWindow where
  slot : LimitSlot
  utilization : Number
  resetsAtSec : Option ℤ
  deriving DecidableEq

structure LimitInfo where
  resetAtSec : ℤ
  guessed : Bool
  claim : LimitSlot
  windows : List LimitWindow
  deriving DecidableEq

def FALLBACK_RESET_SECONDS : ℤ := 300

/-! ### Windows -/

def digit : Pattern := .character Char.isDigit

/-- The pattern anywhere in a text. -/
def within (pattern : Pattern) : Pattern :=
  .all [.many (.character fun _ => true), pattern, .many (.character fun _ => true)]

def shortLabel : Pattern :=
  within (.oneOf [.exactly "five", .exactly "5h", .exactly "session",
    .all [.exactly "~", .character fun next => '1' ≤ next ∧ next ≤ '5', .exactly "h"],
    .exactly "hour"])

def longLabel : Pattern :=
  within (.oneOf [.exactly "seven", .exactly "7d", .exactly "week", .exactly "day",
    .all [.exactly "~", .atLeastOne digit, .exactly "d"]])

def plainNumber : Pattern :=
  .sequence (.atLeastOne digit) (.optional (.sequence (.exactly ".") (.atLeastOne digit)))

section Readings

variable (runtime : LimitRuntime)

def slotOf (label : String) : Option LimitSlot :=
  let lower := runtime.toLowerCase label
  if shortLabel.test lower then some .short
  else if longLabel.test lower then some .long
  else none

/-- Numbers below `1e11` are seconds, others milliseconds. -/
def parseReset (resetsAt : Option String) : Option ℤ :=
  match resetsAt with
  | none => none
  | some text =>
      if text = "" then none
      else match (runtime.toNumber text).filter fun _ => plainNumber.test (trim text) with
        | some number => some ⌊(if number < 100000000000 then number * 1000 else number) / 1000⌋
        | none => (runtime.parseDate text).map (· / 1000)

/-- A window goes into the slot of its label, or else into the first that is free of the two; it
is dropped where its slot is taken. -/
def addWindow (out : List LimitWindow) (window : UsageWindow) : List LimitWindow :=
  let slot := (slotOf runtime window.label).getD
    (if out.any (·.slot = .short) then .long else .short)
  if out.any (·.slot = slot) then out
  else out ++ [⟨slot, window.utilization, parseReset runtime window.resetsAt⟩]

def windowsOf (usage : Option PoolUsage) : List LimitWindow :=
  ((usage.map PoolUsage.windows).getD []).foldl (addWindow runtime) []

/-- The order of the resets, which has to be computable. -/
local instance resetOrder : Preorder ℤ := Int.instLinearOrder.toPreorder

/-- When a member is usable again, which window holds it back, and its windows. -/
structure Recovery where
  resetAtSec : ℤ
  claim : LimitSlot
  windows : List LimitWindow
  deriving DecidableEq

/-- The windows that hold a member back. -/
def blockingOf (windows : List LimitWindow) (reservePercent : Number) : List LimitWindow :=
  match windows.filter (reservePercent ≤ ·.utilization) with
  | [] => (windows.argmax (·.utilization)).toList
  | blocking => blocking

def memberRecovery (usage : Option PoolUsage) (reservePercent : Number) : Option Recovery :=
  let windows := windowsOf runtime usage
  let timed := (blockingOf windows reservePercent).filterMap fun window =>
    window.resetsAtSec.map fun reset => (⟨reset, window.slot, windows⟩ : Recovery)
  timed.argmax (·.resetAtSec)

/-- The earliest recovery in the future; `now` is in milliseconds. -/
def earliestRecovery (usages : List (Option PoolUsage)) (reservePercent : Number) (now : ℤ) :
    Option Recovery :=
  ((usages.filterMap fun usage => memberRecovery runtime usage reservePercent).filter
    fun recovery => now / 1000 < recovery.resetAtSec).argmin (·.resetAtSec)

def summariseLimit (usages : List (Option PoolUsage)) (reservePercent : Number) (now : ℤ) :
    LimitInfo :=
  match earliestRecovery runtime usages reservePercent now with
  | some best => ⟨best.resetAtSec, false, best.claim, best.windows⟩
  | none => ⟨now / 1000 + FALLBACK_RESET_SECONDS, true, .short, []⟩

end Readings

/-! ### What a reading says -/

section Meaning

variable (runtime : LimitRuntime) (usage : Option PoolUsage) (reservePercent : Number)

/-- The windows of a reading, none of them dropped. -/
def readWindows : List UsageWindow := (usage.map PoolUsage.windows).getD []

/-- The resets of the windows that hold a member back. -/
def blockingResets : Set ℤ :=
  {reset | ∃ window ∈ readWindows usage, reservePercent ≤ window.utilization ∧
    parseReset runtime window.resetsAt = some reset}

/-- The member is back at the latest reset of the windows that hold it back; if none does, at the
reset of its busiest window. -/
def Recovers (reset : ℤ) : Prop :=
  IsGreatest (blockingResets runtime usage reservePercent) reset ∨
    (∀ window ∈ readWindows usage, window.utilization < reservePercent) ∧
      ∃ busiest, (readWindows usage).argmax (·.utilization) = some busiest ∧
        parseReset runtime busiest.resetsAt = some reset

/-- The two slots hold what decides: a window at or over the reserve is kept and its reset is
known, and when there is none of them every window is kept. -/
structure Fitting : Prop where
  timed : ∀ window ∈ readWindows usage, reservePercent ≤ window.utilization →
    ∃ reset, parseReset runtime window.resetsAt = some reset
  kept : ∀ window ∈ readWindows usage, reservePercent ≤ window.utilization →
    ∃ slot, ⟨slot, window.utilization, parseReset runtime window.resetsAt⟩ ∈
      windowsOf runtime usage
  whole : (∀ window ∈ readWindows usage, window.utilization < reservePercent) →
    (windowsOf runtime usage).length = (readWindows usage).length

end Meaning

section Fits

variable {runtime : LimitRuntime} {usage : Option PoolUsage} {reservePercent : Number}

/-! ### The two slots -/

/-- What a window that was read, and one that is kept, says of use and reset. -/
def figures (runtime : LimitRuntime) (window : UsageWindow) : Number × Option ℤ :=
  (window.utilization, parseReset runtime window.resetsAt)

def keptFigures (window : LimitWindow) : Number × Option ℤ :=
  (window.utilization, window.resetsAtSec)

theorem addWindow_cases (runtime : LimitRuntime) (out : List LimitWindow) (window : UsageWindow) :
    addWindow runtime out window = out ∨ ∃ slot, addWindow runtime out window =
      out ++ [⟨slot, window.utilization, parseReset runtime window.resetsAt⟩] := by
  unfold addWindow
  extract_lets slot
  split
  · exact .inl rfl
  · exact .inr ⟨_, rfl⟩

theorem sublist_foldl_addWindow (runtime : LimitRuntime) (windows : List UsageWindow) (out : List LimitWindow) :
    ((windows.foldl (addWindow runtime) out).map keptFigures).Sublist
      (out.map keptFigures ++ windows.map (figures runtime)) := by
  induction windows generalizing out with
  | nil => simp
  | cons window windows inductionHypothesis =>
    rw [List.foldl_cons]
    refine (inductionHypothesis _).trans ?_
    rcases addWindow_cases runtime out window with same | ⟨slot, more⟩
    · rw [same]
      exact List.Sublist.append (List.Sublist.refl _) (List.sublist_cons_self _ _)
    · rw [more, List.map_append, List.append_assoc]
      exact List.Sublist.refl _

/-- The windows that are kept are some of those that were read. -/
theorem sublist_windowsOf :
    ((windowsOf runtime usage).map keptFigures).Sublist
      ((readWindows usage).map (figures runtime)) := by
  simpa [windowsOf, readWindows] using
    sublist_foldl_addWindow runtime (readWindows usage) []

theorem mem_of_windowsOf {window : LimitWindow} (member : window ∈ windowsOf runtime usage) :
    ∃ read ∈ readWindows usage, figures runtime read = keptFigures window :=
  List.mem_map.mp (sublist_windowsOf.subset (List.mem_map_of_mem member))

theorem argmax_map {Item Other Key : Type} [LinearOrder Key] (place : Item → Other)
    (key : Other → Key) (items : List Item) :
    (items.map place).argmax key = (items.argmax (key ∘ place)).map place := by
  induction items using List.reverseRecOn with
  | nil => rfl
  | append_singleton items item inductionHypothesis =>
    rw [List.map_append, List.map_singleton, List.argmax_concat, List.argmax_concat,
      inductionHypothesis]
    cases items.argmax (key ∘ place) with
    | none => rfl
    | some best =>
      dsimp only [Option.map_some, Function.comp_apply]
      split <;> rfl

/-! ### One member -/

variable {recovery : Recovery} {reset : ℤ}

theorem mem_timed {window : LimitWindow} {timed : Recovery} {windows : List LimitWindow}
    (isTimed : window.resetsAtSec.map (fun reset => (⟨reset, window.slot, windows⟩ : Recovery)) =
      some timed) : window.resetsAtSec = some timed.resetAtSec ∧ timed.windows = windows := by
  obtain ⟨reset, isReset, rfl⟩ := Option.map_eq_some_iff.mp isTimed
  exact ⟨isReset, rfl⟩

/-- The latest of the resets of the windows that the code takes to hold the member back. -/
theorem memberRecovery_spec
    (isRecovery : memberRecovery runtime usage reservePercent = some recovery) :
    recovery.windows = windowsOf runtime usage ∧
      IsGreatest {reset | ∃ window ∈ blockingOf (windowsOf runtime usage) reservePercent,
        window.resetsAtSec = some reset} recovery.resetAtSec := by
  have isLatest := List.mem_argmax_iff.mp (show recovery ∈ List.argmax _ _ from isRecovery)
  obtain ⟨window, member, isTimed⟩ := List.mem_filterMap.mp isLatest.1
  obtain ⟨isReset, same⟩ := mem_timed isTimed
  refine ⟨same, ⟨window, member, isReset⟩, ?_⟩
  rintro reset ⟨other, otherMember, otherReset⟩
  exact isLatest.2.1 ⟨reset, other.slot, _⟩
    (List.mem_filterMap.mpr ⟨other, otherMember, by rw [otherReset]; rfl⟩)

theorem exists_memberRecovery
    {window : LimitWindow} (member : window ∈ blockingOf (windowsOf runtime usage) reservePercent)
    (isReset : window.resetsAtSec = some reset) :
    ∃ recovery, memberRecovery runtime usage reservePercent = some recovery := by
  refine Option.ne_none_iff_exists'.mp fun isNone => ?_
  have empty := List.argmax_eq_none.mp isNone
  have timed : (⟨reset, window.slot, windowsOf runtime usage⟩ : Recovery) ∈ [] := by
    rw [← empty]
    exact List.mem_filterMap.mpr ⟨window, member, by rw [isReset]; rfl⟩
  cases timed

theorem memberRecovery_eq_iff :
    (∃ recovery, memberRecovery runtime usage reservePercent = some recovery ∧
      recovery.resetAtSec = reset) ↔
      IsGreatest {reset | ∃ window ∈ blockingOf (windowsOf runtime usage) reservePercent,
        window.resetsAtSec = some reset} reset := by
  constructor
  · rintro ⟨recovery, isRecovery, rfl⟩
    exact (memberRecovery_spec isRecovery).2
  · intro greatest
    obtain ⟨window, member, isReset⟩ := greatest.1
    obtain ⟨recovery, isRecovery⟩ := exists_memberRecovery member isReset
    exact ⟨recovery, isRecovery, (memberRecovery_spec isRecovery).2.unique greatest⟩

theorem blockingOf_of_blocking {windows : List LimitWindow} {window : LimitWindow}
    (member : window ∈ windows) (blocks : reservePercent ≤ window.utilization) :
    blockingOf windows reservePercent = windows.filter (reservePercent ≤ ·.utilization) := by
  have isBlocking : window ∈ windows.filter (reservePercent ≤ ·.utilization) :=
    List.mem_filter.mpr ⟨member, decide_eq_true blocks⟩
  unfold blockingOf
  split
  next none => rw [none] at isBlocking; cases isBlocking
  next => rfl

theorem blockingOf_of_free {windows : List LimitWindow}
    (free : ∀ window ∈ windows, window.utilization < reservePercent) :
    blockingOf windows reservePercent = (windows.argmax (·.utilization)).toList := by
  have none : windows.filter (reservePercent ≤ ·.utilization) = [] :=
    List.filter_eq_nil_iff.mpr fun window member blocks =>
      absurd (free window member) (of_decide_eq_true blocks).not_gt
  rw [blockingOf, none]

/-- In a member that the two slots fit, the kept windows that block are those that were read. -/
theorem Fitting.blockingResets (fitting : Fitting runtime usage reservePercent)
    {blocking : UsageWindow} (member : blocking ∈ readWindows usage)
    (blocks : reservePercent ≤ blocking.utilization) :
    {reset | ∃ window ∈ blockingOf (windowsOf runtime usage) reservePercent,
      window.resetsAtSec = some reset} = blockingResets runtime usage reservePercent := by
  obtain ⟨slot, isKept⟩ := fitting.kept blocking member blocks
  rw [blockingOf_of_blocking isKept blocks]
  ext reset
  constructor
  · rintro ⟨window, isBlocking, isReset⟩
    obtain ⟨inWindows, isOver⟩ := List.mem_filter.mp isBlocking
    obtain ⟨read, isRead, same⟩ := mem_of_windowsOf inWindows
    obtain ⟨sameUse, sameReset⟩ := Prod.mk.inj same
    exact ⟨read, isRead, sameUse ▸ of_decide_eq_true isOver, sameReset.trans isReset⟩
  · rintro ⟨read, isRead, isOver, isReset⟩
    obtain ⟨slot, isKept⟩ := fitting.kept read isRead isOver
    exact ⟨_, List.mem_filter.mpr ⟨isKept, decide_eq_true isOver⟩, isReset⟩

/-- In a member that no window holds back, the busiest of the kept windows is the busiest. -/
theorem Fitting.busiest (fitting : Fitting runtime usage reservePercent)
    (free : ∀ window ∈ readWindows usage, window.utilization < reservePercent) :
    ((windowsOf runtime usage).argmax (·.utilization)).map keptFigures =
      ((readWindows usage).argmax (·.utilization)).map (figures runtime) := by
  have same : (windowsOf runtime usage).map keptFigures =
      (readWindows usage).map (figures runtime) :=
    sublist_windowsOf.eq_of_length (by simpa using fitting.whole free)
  have first := argmax_map keptFigures Prod.fst (windowsOf runtime usage)
  have second := argmax_map (figures runtime) Prod.fst (readWindows usage)
  rw [← same] at second
  exact first.symm.trans second

theorem Fitting.recovers_iff (fitting : Fitting runtime usage reservePercent) :
    (∃ recovery, memberRecovery runtime usage reservePercent = some recovery ∧
      recovery.resetAtSec = reset) ↔ Recovers runtime usage reservePercent reset := by
  rw [memberRecovery_eq_iff]
  by_cases held : ∃ window ∈ readWindows usage, reservePercent ≤ window.utilization
  · obtain ⟨window, member, blocks⟩ := held
    rw [fitting.blockingResets member blocks]
    exact ⟨.inl, fun recovers => recovers.resolve_right fun idle =>
      absurd (idle.1 window member) blocks.not_gt⟩
  · have free : ∀ window ∈ readWindows usage, window.utilization < reservePercent :=
      fun window member => lt_of_not_ge fun blocks => held ⟨window, member, blocks⟩
    have keptFree : ∀ window ∈ windowsOf runtime usage, window.utilization < reservePercent := by
      intro window member
      obtain ⟨read, isRead, same⟩ := mem_of_windowsOf member
      exact (Prod.mk.inj same).1 ▸ free read isRead
    have busiest := fitting.busiest free
    rw [blockingOf_of_free keptFree]
    constructor
    · intro greatest
      obtain ⟨window, member, isReset⟩ := greatest.1
      rw [Option.mem_toList] at member
      rw [member, Option.map_some] at busiest
      obtain ⟨read, isRead, same⟩ := Option.map_eq_some_iff.mp busiest.symm
      exact .inr ⟨free, read, isRead, (Prod.mk.inj same).2.trans isReset⟩
    · rintro (greatest | ⟨-, read, isRead, isReset⟩)
      · obtain ⟨window, member, blocks, -⟩ := greatest.1
        exact absurd (free window member) blocks.not_gt
      · rw [isRead, Option.map_some] at busiest
        obtain ⟨window, isWindow, same⟩ := Option.map_eq_some_iff.mp busiest
        have keptReset := (Prod.mk.inj same).2.trans isReset
        refine ⟨⟨window, by simp [isWindow], keptReset⟩, ?_⟩
        rintro other ⟨otherWindow, member, otherReset⟩
        rw [isWindow, Option.mem_toList] at member
        obtain rfl := Option.some.inj member
        exact (Option.some.inj (otherReset.symm.trans keptReset)).le

end Fits

/-! ### All members -/

variable {runtime : LimitRuntime} {usages : List (Option PoolUsage)} {reservePercent : Number}
  {now : ℤ}

theorem earliestRecovery_spec {best : Recovery}
    (isBest : earliestRecovery runtime usages reservePercent now = some best) :
    now / 1000 < best.resetAtSec ∧
      (∃ usage ∈ usages, memberRecovery runtime usage reservePercent = some best) ∧
      ∀ usage ∈ usages, ∀ recovery, memberRecovery runtime usage reservePercent = some recovery →
        now / 1000 < recovery.resetAtSec → best.resetAtSec ≤ recovery.resetAtSec := by
  have isEarliest := List.mem_argmin_iff.mp (show best ∈ List.argmin _ _ from isBest)
  obtain ⟨isMember, later⟩ := List.mem_filter.mp isEarliest.1
  refine ⟨of_decide_eq_true later, List.mem_filterMap.mp isMember, ?_⟩
  intro usage member recovery isRecovery future
  exact isEarliest.2.1 recovery (List.mem_filter.mpr
    ⟨List.mem_filterMap.mpr ⟨usage, member, isRecovery⟩, decide_eq_true future⟩)

def plainDates : LimitRuntime := ⟨id, fun _ => none, fun text =>
  if text = "10:00" then some 36000000 else if text = "12:00" then some 43200000 else none⟩

/-- The first member is full until noon; nothing holds the second one back. -/
def fullAndIdle : List (Option PoolUsage) :=
  [some ⟨[⟨"five-hour", .finite 100, some "12:00"⟩]⟩, some ⟨[⟨"week", .finite 10, some "10:00"⟩]⟩]

end AiSwitcher.Gateway.NativeLimit
