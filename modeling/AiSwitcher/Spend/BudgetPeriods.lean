/-
This file models the periods of a budget: `periodStartForTimeUnit` of `src/spend/state.ts`,
`resetDateForTimeUnit` of `src/cli/limits/aws-bedrock-limits.ts` and the days that the cost query of
`src/spend/compute.ts` asks for. Periods start and reset at midnight of the local zone, while the
days of the query are those of UTC; the two agree just in zones that are not east of it.
-/

import AiSwitcher.Library.Calendar

namespace AiSwitcher.SpendGuard

open JavaScript.Calendar

/-! ### The code -/

inductive TimeUnit where
  | daily
  | weekly
  | monthly
  | quarterly
  | annually
  deriving DecidableEq

/-- As budgets have it. -/
def TimeUnit.text : TimeUnit → String
  | daily => "DAILY"
  | weekly => "WEEKLY"
  | monthly => "MONTHLY"
  | quarterly => "QUARTERLY"
  | annually => "ANNUALLY"

section Code

variable (offset : ℤ) (timeUnit : Option String) (now : Instant)

/-- An invalid date is `none`. -/
def periodStartForTimeUnit : Option Instant :=
  let day := now.localDay offset
  let year := yearFromDay day
  let month := monthFromDay day
  match timeUnit with
  | some "DAILY" => newDate offset year month (dateFromDay day)
  | some "WEEKLY" => newDate offset year month (dateFromDay day - weekDay day)
  | some "MONTHLY" => newDate offset year month 1
  | some "QUARTERLY" => newDate offset year (month - month % 3) 1
  | some "ANNUALLY" => newDate offset year 0 1
  | _ => newDate offset year month 1

/-- No reset, an invalid date, or a date. -/
def resetDateForTimeUnit : Option (Option Instant) :=
  let day := now.localDay offset
  let year := yearFromDay day
  let month := monthFromDay day
  match timeUnit with
  | some "DAILY" => some (newDate offset year month (dateFromDay day + 1))
  | some "MONTHLY" => some (newDate offset year (month + 1) 1)
  | some "QUARTERLY" => some (newDate offset year (month + (3 - month % 3)) 1)
  | some "ANNUALLY" => some (newDate offset (year + 1) 0 1)
  | _ => none

/-- An invalid date throws. -/
def isoDay (date : Option Instant) : Option (List Char) :=
  date.map fun date => (toISOString date).take 10

/-- What `runSpendGuardCycle` asks the Cost Explorer for. -/
def costWindow : Option (List Char × List Char) := do
  let start ← isoDay (periodStartForTimeUnit offset timeUnit now)
  let day := now.localDay offset
  let end_ ← isoDay (newDate offset (yearFromDay day) (monthFromDay day) (dateFromDay day + 1))
  some (start, end_)

end Code

/-! ### Periods and windows -/

/-- The last day of a window is not part of it. -/
def InWindow (window : List Char × List Char) (day : ℤ) : Prop :=
  ∃ first last, readDay window.1 = some first ∧ readDay window.2 = some last ∧
    first ≤ day ∧ day < last

/-- The periods follow each other, and the window has the days of the period so far. -/
structure Tiles (offset : ℤ) (timeUnit : Option String) (now : Instant) : Prop where
  starts : ∃ start, periodStartForTimeUnit offset timeUnit now = some start ∧ start.ms ≤ now.ms
  resets : ∃ reset, resetDateForTimeUnit offset timeUnit now = some (some reset) ∧
    now.ms < reset.ms ∧ periodStartForTimeUnit offset timeUnit reset = some reset
  window : ∃ start window, periodStartForTimeUnit offset timeUnit now = some start ∧
    costWindow offset timeUnit now = some window ∧
      ∀ day, InWindow window day ↔ start.localDay offset ≤ day ∧ day ≤ now.localDay offset

variable {offset : ℤ} {now : Instant} {unit : TimeUnit}

/-! ### Dates of a year -/

theorem newDate_ms {year date : ℤ} {month : ℕ} {instant : Instant} :
    newDate offset year month date = some instant ↔
      instant.ms = msPerDay * makeDay (makeFullYear year) month date - offset :=
  timeClip_eq_some

/-- The first day of a month counted on to the next year. -/
theorem makeDay_first {year : ℤ} {month : ℕ} (bound : month ≤ 12) :
    makeDay year month 1 = dayFromYear year + daysBefore (isLeap year) month := by
  rcases bound.lt_or_eq with inYear | rfl
  · rw [makeDay, Nat.div_eq_of_lt inYear, Nat.mod_eq_of_lt inYear, Nat.cast_zero, add_zero]
    omega
  · have next := dayFromYear_succ year
    have first : makeDay year 12 1 = dayFromYear (year + 1) + 0 + 1 - 1 := rfl
    omega

theorem day_eq (day : ℤ) : day = dayFromYear (yearFromDay day) + dayInYear day := by
  rw [dayInYear]
  omega

theorem first_le_day (day : ℤ) {month : ℕ} (early : month ≤ monthFromDay day) :
    makeDay (yearFromDay day) month 1 ≤ day := by
  obtain ⟨inYear, starts, -⟩ := monthFromDay_spec day
  have before := daysBefore_mono (isLeap (yearFromDay day)) _ inYear.le _ early
  have whole := day_eq day
  rw [makeDay_first (early.trans inYear.le)]
  omega

theorem day_lt_first (day : ℤ) {month : ℕ} (late : monthFromDay day < month) (bound : month ≤ 12) :
    day < makeDay (yearFromDay day) month 1 := by
  obtain ⟨-, -, ends⟩ := monthFromDay_spec day
  have after := daysBefore_mono (isLeap (yearFromDay day)) _ bound (monthFromDay day + 1) late
  have whole := day_eq day
  rw [makeDay_first bound]
  omega

theorem fields_first (year : ℤ) (month : ℕ) :
    yearFromDay (makeDay year month 1) = year + (month / 12 : ℕ) ∧
      monthFromDay (makeDay year month 1) = month % 12 := by
  have fields := (isDate_first (year + (month / 12 : ℕ)) (Nat.mod_lt month (by decide))).fields
  rw [← makeDay_month] at fields
  exact ⟨fields.1, fields.2.1⟩

/-! ### Periods of days -/

/-- The day on which the period of a day starts. -/
def startDay : TimeUnit → ℤ → ℤ
  | .daily, day => day
  | .weekly, day => day - weekDay day
  | .monthly, day => makeDay (yearFromDay day) (monthFromDay day) 1
  | .quarterly, day => makeDay (yearFromDay day) (monthFromDay day - monthFromDay day % 3) 1
  | .annually, day => makeDay (yearFromDay day) 0 1

/-- The day on which the next period starts. -/
def resetDay : TimeUnit → ℤ → ℤ
  | .daily, day => day + 1
  | .weekly, day => day - weekDay day + 7
  | .monthly, day => makeDay (yearFromDay day) (monthFromDay day + 1) 1
  | .quarterly, day => makeDay (yearFromDay day) (monthFromDay day + (3 - monthFromDay day % 3)) 1
  | .annually, day => makeDay (yearFromDay day + 1) 0 1

theorem startDay_le (unit : TimeUnit) (day : ℤ) : startDay unit day ≤ day := by
  cases unit with
  | daily => exact le_rfl
  | weekly =>
    rw [startDay, weekDay]
    omega
  | monthly => exact first_le_day day le_rfl
  | quarterly => exact first_le_day day (Nat.sub_le _ _)
  | annually => exact first_le_day day (Nat.zero_le _)

theorem lt_resetDay (unit : TimeUnit) (day : ℤ) : day < resetDay unit day := by
  have inYear := (monthFromDay_spec day).1
  cases unit with
  | daily => exact Int.lt_succ day
  | weekly =>
    rw [resetDay, weekDay]
    omega
  | monthly => exact day_lt_first day (Nat.lt_succ_self _) inYear
  | quarterly => exact day_lt_first day (by omega) (by omega)
  | annually =>
    rw [resetDay, makeDay_first (Nat.zero_le _)]
    exact (yearFromDay_spec day).2.trans_eq (add_zero _).symm

/-- The period of the day after a period starts on that day. -/
theorem startDay_resetDay (unit : TimeUnit) (day : ℤ) :
    startDay unit (resetDay unit day) = resetDay unit day := by
  cases unit with
  | daily => rfl
  | weekly =>
    rw [startDay, resetDay, weekDay, weekDay]
    omega
  | monthly =>
    obtain ⟨year, month⟩ := fields_first (yearFromDay day) (monthFromDay day + 1)
    rw [startDay, resetDay, year, month, ← makeDay_month]
  | quarterly =>
    obtain ⟨year, month⟩ :=
      fields_first (yearFromDay day) (monthFromDay day + (3 - monthFromDay day % 3))
    have quarter : (monthFromDay day + (3 - monthFromDay day % 3)) % 12 % 3 = 0 := by omega
    rw [startDay, resetDay, year, month, quarter, Nat.sub_zero, ← makeDay_month]
  | annually =>
    obtain ⟨year, -⟩ := fields_first (yearFromDay day + 1) 0
    rw [startDay, resetDay, year, Nat.zero_div, Nat.cast_zero, add_zero]

/-- Except for weeks, a period starts in the year of its days. -/
theorem year_startDay (once : unit ≠ .weekly) (day : ℤ) :
    yearFromDay (startDay unit day) = yearFromDay day := by
  have inYear := (monthFromDay_spec day).1
  cases unit with
  | daily => rfl
  | weekly => exact absurd rfl once
  | monthly => exact (isDate_first _ inYear).fields.1
  | quarterly => exact (isDate_first _ ((Nat.sub_le _ _).trans_lt inYear)).fields.1
  | annually => exact (isDate_first _ (by decide)).fields.1

/-! ### What the code computes -/

/-- The start of a day. -/
def midnight (offset day : ℤ) : Option Instant := timeClip (msPerDay * day - offset)

theorem newDate_eq {year : ℤ} (plain : ¬ (0 ≤ year ∧ year ≤ 99)) (month : ℕ) (date : ℤ) :
    newDate offset year month date = midnight offset (makeDay year month date) := by
  rw [newDate, makeFullYear, if_neg plain, midnight]

section Plain

variable (plain : ¬ (0 ≤ yearFromDay (now.localDay offset) ∧
  yearFromDay (now.localDay offset) ≤ 99))
include plain

theorem periodStart_eq (unit : TimeUnit) :
    periodStartForTimeUnit offset unit.text now =
      midnight offset (startDay unit (now.localDay offset)) := by
  cases unit with
  | daily =>
    refine (newDate_eq plain _ _).trans ?_
    rw [makeDay_fields, startDay]
  | weekly =>
    refine (newDate_eq plain _ _).trans ?_
    rw [sub_eq_add_neg, makeDay_add, makeDay_fields, startDay, sub_eq_add_neg]
  | monthly => exact newDate_eq plain _ _
  | quarterly => exact newDate_eq plain _ _
  | annually => exact newDate_eq plain _ _

theorem tomorrow_eq : newDate offset (yearFromDay (now.localDay offset))
      (monthFromDay (now.localDay offset)) (dateFromDay (now.localDay offset) + 1) =
    midnight offset (now.localDay offset + 1) := by
  rw [newDate_eq plain, makeDay_add, makeDay_fields]

end Plain

theorem reset_eq (once : unit ≠ .weekly) (recent : 100 ≤ yearFromDay (now.localDay offset)) :
    resetDateForTimeUnit offset unit.text now =
      some (midnight offset (resetDay unit (now.localDay offset))) := by
  cases unit with
  | daily => exact congrArg some (tomorrow_eq (by omega))
  | weekly => exact absurd rfl once
  | monthly => exact congrArg some (newDate_eq (by omega) _ _)
  | quarterly => exact congrArg some (newDate_eq (by omega) _ _)
  | annually => exact congrArg some (newDate_eq (by omega) _ _)

theorem midnight_eq_some {day : ℤ} {instant : Instant} :
    midnight offset day = some instant ↔ instant.ms = msPerDay * day - offset :=
  timeClip_eq_some

theorem localDay_midnight {day : ℤ} {instant : Instant}
    (starts : midnight offset day = some instant) (other : ℤ) :
    instant.localDay other = day + (other - offset) / msPerDay := by
  rw [midnight_eq_some] at starts
  rw [Instant.localDay, starts, msPerDay]
  omega

/-- A local midnight is not after an instant just if its day is not. -/
theorem midnight_le_iff {day : ℤ} {instant : Instant}
    (starts : midnight offset day = some instant) (other : Instant) :
    instant.ms ≤ other.ms ↔ day ≤ other.localDay offset := by
  rw [midnight_eq_some] at starts
  rw [Instant.localDay, starts, msPerDay]
  omega

theorem exists_midnight {day : ℤ} (west : -msPerDay < offset ∧ offset ≤ 0)
    (recent : dayFromYear 100 ≤ day) (near : day ≤ dayFromYear 10000) :
    ∃ instant, midnight offset day = some instant := by
  have first : dayFromYear 100 = -683003 := rfl
  have last : dayFromYear 10000 = 2932897 := rfl
  rw [msPerDay] at west
  refine ⟨⟨msPerDay * day - offset, ?_⟩, midnight_eq_some.mpr rfl⟩
  rw [msPerDay]
  omega

theorem resetDay_le (once : unit ≠ .weekly) (day : ℤ) :
    resetDay unit day ≤ dayFromYear (yearFromDay day + 1) := by
  have inYear := (monthFromDay_spec day).1
  have first {month : ℕ} (bound : month ≤ 12) :
      makeDay (yearFromDay day) month 1 ≤ dayFromYear (yearFromDay day + 1) := by
    rw [makeDay_first bound, dayFromYear_succ]
    exact add_le_add_right (daysBefore_mono _ 12 le_rfl month bound) _
  cases unit with
  | daily => exact (yearFromDay_spec day).2
  | weekly => exact absurd rfl once
  | monthly => exact first inYear
  | quarterly => exact first (by omega)
  | annually =>
    rw [resetDay, makeDay_first (Nat.zero_le _)]
    exact (add_zero _).le

/-! ### The window -/

/-- The days between two instants, if the texts of both are readable. -/
theorem inWindow_iff (first last : Instant) (day : ℤ) :
    InWindow ((toISOString first).take 10, (toISOString last).take 10) day ↔
      (0 ≤ yearFromDay (first.localDay 0) ∧ yearFromDay (first.localDay 0) ≤ 9999) ∧
        (0 ≤ yearFromDay (last.localDay 0) ∧ yearFromDay (last.localDay 0) ≤ 9999) ∧
          first.localDay 0 ≤ day ∧ day < last.localDay 0 := by
  rw [InWindow, readDay_toISOString, readDay_toISOString]
  constructor
  · rintro ⟨firstDay, lastDay, isFirst, isLast, within⟩
    obtain ⟨firstPlain, isFirst⟩ := Option.ite_none_right_eq_some.mp isFirst
    obtain ⟨lastPlain, isLast⟩ := Option.ite_none_right_eq_some.mp isLast
    rw [Option.some_inj] at isFirst isLast
    subst isFirst isLast
    exact ⟨firstPlain, lastPlain, within⟩
  · rintro ⟨firstPlain, lastPlain, within⟩
    exact ⟨_, _, if_pos firstPlain, if_pos lastPlain, within⟩

theorem costWindow_eq_some {timeUnit : Option String} {window : List Char × List Char} :
    costWindow offset timeUnit now = some window ↔ ∃ first last,
      periodStartForTimeUnit offset timeUnit now = some first ∧
        newDate offset (yearFromDay (now.localDay offset)) (monthFromDay (now.localDay offset))
          (dateFromDay (now.localDay offset) + 1) = some last ∧
        window = ((toISOString first).take 10, (toISOString last).take 10) := by
  simp only [costWindow, isoDay, Option.bind_eq_bind, Option.bind_eq_some_iff,
    Option.map_eq_some_iff, Option.some_inj]
  constructor
  · rintro ⟨_, ⟨first, isFirst, rfl⟩, _, ⟨last, isLast, rfl⟩, rfl⟩
    exact ⟨first, last, isFirst, isLast, rfl⟩
  · rintro ⟨first, last, isFirst, isLast, rfl⟩
    exact ⟨_, ⟨first, isFirst, rfl⟩, _, ⟨last, isLast, rfl⟩, rfl⟩

/-! ### When the periods tile time -/

theorem tiles_of_west (once : unit ≠ .weekly) (west : -msPerDay < offset ∧ offset ≤ 0)
    (recent : 100 ≤ yearFromDay (now.localDay offset))
    (near : yearFromDay (now.localDay offset + 1) ≤ 9999) : Tiles offset unit.text now := by
  have plain {year : ℤ} (late : 100 ≤ year) : ¬ (0 ≤ year ∧ year ≤ 99) := by omega
  have sameDay : (0 - offset) / msPerDay = 0 := by
    rw [msPerDay] at west ⊢
    omega
  have end_ : now.localDay offset + 1 < dayFromYear 10000 :=
    not_le.mp fun late => absurd (le_yearFromDay_iff.mpr late) (by omega)
  have thisYear : yearFromDay (now.localDay offset) + 1 ≤ 10000 := by
    by_contra late
    have starts := le_yearFromDay_iff.mp (show 10000 ≤ yearFromDay (now.localDay offset) by omega)
    omega
  have startYear := year_startDay once (now.localDay offset)
  have begins := le_yearFromDay_iff.mp (recent.trans_eq startYear.symm)
  have notAfter := startDay_le unit (now.localDay offset)
  have after := lt_resetDay unit (now.localDay offset)
  have resetBound := (resetDay_le once (now.localDay offset)).trans
    (dayFromYear_mono thisYear)
  obtain ⟨start, isStart⟩ := exists_midnight west begins (by omega)
  obtain ⟨reset, isReset⟩ := exists_midnight west
    (show dayFromYear 100 ≤ resetDay unit (now.localDay offset) by omega) resetBound
  obtain ⟨last, isLast⟩ := exists_midnight west
    (show dayFromYear 100 ≤ now.localDay offset + 1 by omega) end_.le
  have starts := (periodStart_eq (plain recent) unit).trans isStart
  refine ⟨⟨start, starts, (midnight_le_iff isStart now).mpr notAfter⟩,
    ⟨reset, (reset_eq once recent).trans (congrArg some isReset), ?_, ?_⟩, ⟨start, _, starts,
      costWindow_eq_some.mpr ⟨start, last, starts, (tomorrow_eq (plain recent)).trans isLast, rfl⟩,
      fun day => ?_⟩⟩
  · exact not_le.mp fun early => absurd ((midnight_le_iff isReset now).mp early) (by omega)
  · have resetsOn : reset.localDay offset = resetDay unit (now.localDay offset) := by
      rw [localDay_midnight isReset, sub_self, Int.zero_ediv, add_zero]
    have late : 100 ≤ yearFromDay (reset.localDay offset) :=
      le_yearFromDay_iff.mpr (by rw [resetsOn]; omega)
    rw [periodStart_eq (plain late), resetsOn, startDay_resetDay, isReset]
  · have startsOn : start.localDay offset = startDay unit (now.localDay offset) := by
      rw [localDay_midnight isStart, sub_self, Int.zero_ediv, add_zero]
    have lastYear : 100 ≤ yearFromDay (now.localDay offset + 1) :=
      le_yearFromDay_iff.mpr (by omega)
    rw [inWindow_iff, localDay_midnight isStart, localDay_midnight isLast, sameDay, startsOn,
      add_zero, add_zero, startYear]
    omega

/-- The years of two digits are taken for other ones, so that periods start later. -/
theorem plain_of_starts (once : unit ≠ .weekly) {start : Instant}
    (starts : periodStartForTimeUnit offset unit.text now = some start)
    (notAfter : start.ms ≤ now.ms) :
    ¬ (0 ≤ yearFromDay (now.localDay offset) ∧ yearFromDay (now.localDay offset) ≤ 99) := by
  rintro digits
  obtain ⟨month, date, first, made⟩ : ∃ month date, 1 ≤ date ∧
      periodStartForTimeUnit offset unit.text now =
        newDate offset (yearFromDay (now.localDay offset)) month date := by
    cases unit with
    | daily => exact ⟨_, _, dateFromDay_pos _, rfl⟩
    | weekly => exact absurd rfl once
    | monthly => exact ⟨_, _, le_rfl, rfl⟩
    | quarterly => exact ⟨_, _, le_rfl, rfl⟩
    | annually => exact ⟨_, _, le_rfl, rfl⟩
  rw [starts, newDate, makeFullYear, if_pos digits] at made
  have early := (midnight_le_iff made.symm now).mp notAfter
  have later := le_yearFromDay_iff.mpr ((dayFromYear_le_makeDay _ month first).trans early)
  omega

/-- Periods tile time and windows match them for all units but weeks, in the zones that are not east
of UTC, in the years from 100 to 9999. -/
theorem tiles_iff (offset : ℤ) (now : Instant) (unit : TimeUnit) :
    Tiles offset unit.text now ↔ unit ≠ .weekly ∧ (-msPerDay < offset ∧ offset ≤ 0) ∧
      100 ≤ yearFromDay (now.localDay offset) ∧ yearFromDay (now.localDay offset + 1) ≤ 9999 := by
  constructor
  · intro tiles
    have once : unit ≠ .weekly := by
      rintro rfl
      obtain ⟨reset, isReset, -⟩ := tiles.resets
      exact Option.some_ne_none _ isReset.symm
    obtain ⟨start, starts, notAfter⟩ := tiles.starts
    have plain := plain_of_starts once starts notAfter
    have isStart := (periodStart_eq plain unit).symm.trans starts
    obtain ⟨other, window, isOther, isWindow, days⟩ := tiles.window
    obtain rfl := Option.some.inj (starts.symm.trans isOther)
    obtain ⟨other, last, isOther, isLast, rfl⟩ := costWindow_eq_some.mp isWindow
    obtain rfl := Option.some.inj (starts.symm.trans isOther)
    rw [tomorrow_eq plain] at isLast
    have early := startDay_le unit (now.localDay offset)
    have startYear := year_startDay once (now.localDay offset)
    simp only [inWindow_iff, localDay_midnight isStart, localDay_midnight isLast, sub_self,
      Int.zero_ediv, add_zero] at days
    -- the first day of the window is the one on which the period starts
    obtain ⟨firstPlain, lastPlain, -, inside⟩ := (days _).mpr ⟨early, le_rfl⟩
    have notLater := ((days _).mpr ⟨le_rfl, early⟩).2.2.1
    have notEarlier := ((days _).mp ⟨firstPlain, lastPlain, le_rfl, by omega⟩).1
    have sameDay : (0 - offset) / msPerDay = 0 := by omega
    rw [sameDay, add_zero, startYear] at firstPlain
    rw [sameDay, add_zero] at lastPlain
    refine ⟨once, ?_, by omega, lastPlain.2⟩
    rw [msPerDay] at sameDay ⊢
    omega
  · rintro ⟨once, west, recent, near⟩
    exact tiles_of_west once west recent near

def newYear : Instant := ⟨1767225600000, by decide⟩

/-- Two hours east of UTC the window of a day ends before it, and a weekly budget has no reset. -/
theorem costWindow_east : costWindow 7200000 TimeUnit.daily.text newYear =
      some ("2025-12-31".toList, "2026-01-01".toList) ∧
    ¬ Tiles 7200000 TimeUnit.daily.text newYear ∧ ¬ Tiles 0 TimeUnit.weekly.text newYear := by
  have asked : costWindow 7200000 TimeUnit.daily.text newYear =
      some ("2025-12-31".toList, "2026-01-01".toList) := by decide +kernel
  have lastDay : readDay "2026-01-01".toList = some 20454 := by decide +kernel
  refine ⟨asked, fun tiles => ?_, fun tiles => ?_⟩
  · obtain ⟨start, notAfter⟩ := tiles.starts
    obtain ⟨other, window, isOther, isWindow, days⟩ := tiles.window
    obtain rfl := Option.some.inj (isOther.symm.trans notAfter.1)
    obtain rfl := Option.some.inj (isWindow.symm.trans asked)
    have early : other.localDay 7200000 ≤ newYear.localDay 7200000 :=
      Int.ediv_le_ediv (by decide) (add_le_add_left notAfter.2 _)
    obtain ⟨first, last, -, isLast, -, inside⟩ := (days _).mpr ⟨early, le_rfl⟩
    obtain rfl := Option.some.inj (isLast.symm.trans lastDay)
    exact absurd inside (by decide)
  · obtain ⟨reset, isReset, -⟩ := tiles.resets
    exact Option.some_ne_none _ isReset.symm

end AiSwitcher.SpendGuard
