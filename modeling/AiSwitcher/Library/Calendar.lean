/-
This file is a small library of calendar days: the proleptic Gregorian calendar counted in days
from 1 January 1970, as `Date` of the language has it, the instants that a `Date` can hold, and the
texts of its days. A day is determined by its year, month and date, and a text of ten characters
reads back as the day it was made of.
-/

import AiSwitcher.Library.Lines
import Mathlib.Algebra.Order.Ring.Int

namespace JavaScript.Calendar

/-! ### Days, years and months -/

def isLeap (year : ℤ) : Bool := year % 4 = 0 ∧ (year % 100 ≠ 0 ∨ year % 400 = 0)

/-- The day on which a year starts. -/
def dayFromYear (year : ℤ) : ℤ :=
  365 * (year - 1970) + (year - 1969) / 4 - (year - 1901) / 100 + (year - 1601) / 400

/-- An estimate from the mean length of a year is at most one year off. -/
def yearFromDay (day : ℤ) : ℤ :=
  let year := 1970 + 400 * day / 146097
  if dayFromYear (year + 1) ≤ day then year + 1
  else if dayFromYear year ≤ day then year
  else year - 1

/-- The days of a year before a month, or all its days for month 12. -/
def daysBefore (leap : Bool) : ℕ → ℤ
  | 0 => 0
  | 1 => 31
  | 2 => 59 + leap.toNat
  | 3 => 90 + leap.toNat
  | 4 => 120 + leap.toNat
  | 5 => 151 + leap.toNat
  | 6 => 181 + leap.toNat
  | 7 => 212 + leap.toNat
  | 8 => 243 + leap.toNat
  | 9 => 273 + leap.toNat
  | 10 => 304 + leap.toNat
  | 11 => 334 + leap.toNat
  | _ => 365 + leap.toNat

/-- The last of the months up to the given one that starts on the day of the year or before. -/
def lastMonth (leap : Bool) (dayInYear : ℤ) : ℕ → ℕ
  | 0 => 0
  | month + 1 =>
      if daysBefore leap (month + 1) ≤ dayInYear then month + 1 else lastMonth leap dayInYear month

def dayInYear (day : ℤ) : ℤ := day - dayFromYear (yearFromDay day)

def monthFromDay (day : ℤ) : ℕ := lastMonth (isLeap (yearFromDay day)) (dayInYear day) 11

def dateFromDay (day : ℤ) : ℤ :=
  dayInYear day - daysBefore (isLeap (yearFromDay day)) (monthFromDay day) + 1

/-- Sunday is 0. -/
def weekDay (day : ℤ) : ℤ := (day + 4) % 7

/-- Months beyond the year and dates beyond the month count on. -/
def makeDay (year : ℤ) (month : ℕ) (date : ℤ) : ℤ :=
  let inYear := year + (month / 12 : ℕ)
  dayFromYear inYear + daysBefore (isLeap inYear) (month % 12) + date - 1

theorem dayFromYear_succ (year : ℤ) :
    dayFromYear (year + 1) = dayFromYear year + daysBefore (isLeap year) 12 := by
  rw [dayFromYear, dayFromYear, daysBefore]
  · cases leap : isLeap year with
    | true =>
      rw [isLeap, decide_eq_true_iff] at leap
      rw [Bool.toNat_true]
      omega
    | false =>
      rw [isLeap, decide_eq_false_iff_not] at leap
      rw [Bool.toNat_false]
      omega
  all_goals exact fun same => by cases same

theorem dayFromYear_lt_iff {year other : ℤ} :
    dayFromYear year < dayFromYear other ↔ year < other := by
  rw [dayFromYear, dayFromYear]
  omega

theorem dayFromYear_mono {year other : ℤ} (notAfter : year ≤ other) :
    dayFromYear year ≤ dayFromYear other :=
  not_lt.mp fun after => absurd (dayFromYear_lt_iff.mp after) (not_lt.mpr notAfter)

/-- A day is in its year. -/
theorem yearFromDay_spec (day : ℤ) :
    dayFromYear (yearFromDay day) ≤ day ∧ day < dayFromYear (yearFromDay day + 1) := by
  have before : dayFromYear (1970 + 400 * day / 146097 - 1) ≤ day := by
    rw [dayFromYear]
    omega
  have after : day < dayFromYear (1970 + 400 * day / 146097 + 1 + 1) := by
    rw [dayFromYear]
    omega
  rw [yearFromDay]
  split
  · next late => exact ⟨late, after⟩
  · next notLate =>
    split
    · next here => exact ⟨here, not_le.mp notLate⟩
    · next early => exact ⟨before, by rw [sub_add_cancel]; exact not_le.mp early⟩

theorem yearFromDay_eq {day year : ℤ} (starts : dayFromYear year ≤ day)
    (ends : day < dayFromYear (year + 1)) : yearFromDay day = year := by
  have spec := yearFromDay_spec day
  have notAfter : yearFromDay day < year + 1 :=
    dayFromYear_lt_iff.mp (spec.1.trans_lt ends)
  have notBefore : year < yearFromDay day + 1 :=
    dayFromYear_lt_iff.mp (starts.trans_lt spec.2)
  omega

theorem le_yearFromDay_iff {year day : ℤ} : year ≤ yearFromDay day ↔ dayFromYear year ≤ day := by
  have spec := yearFromDay_spec day
  constructor
  · intro reached
    exact (dayFromYear_mono reached).trans spec.1
  · intro starts
    exact Int.lt_add_one_iff.mp (dayFromYear_lt_iff.mp (starts.trans_lt spec.2))

theorem dayInYear_spec (day : ℤ) :
    0 ≤ dayInYear day ∧ dayInYear day < daysBefore (isLeap (yearFromDay day)) 12 := by
  have spec := yearFromDay_spec day
  rw [dayFromYear_succ] at spec
  rw [dayInYear]
  omega

theorem daysBefore_lt_succ (leap : Bool) : ∀ month < 12,
    daysBefore leap month < daysBefore leap (month + 1) := by
  cases leap <;> decide

theorem lastMonth_le (leap : Bool) (dayInYear : ℤ) (month : ℕ) :
    lastMonth leap dayInYear month ≤ month := by
  induction month with
  | zero => exact le_rfl
  | succ month inductionHypothesis =>
    rw [lastMonth]
    split
    · exact le_rfl
    · exact Nat.le_succ_of_le inductionHypothesis

/-- A day of a year is in the last month that starts on it or before. -/
theorem lastMonth_spec {leap : Bool} {dayInYear : ℤ} {month : ℕ} (starts : 0 ≤ dayInYear)
    (ends : dayInYear < daysBefore leap (month + 1)) :
    daysBefore leap (lastMonth leap dayInYear month) ≤ dayInYear ∧
      dayInYear < daysBefore leap (lastMonth leap dayInYear month + 1) := by
  induction month with
  | zero => exact ⟨starts, ends⟩
  | succ month inductionHypothesis =>
    rw [lastMonth]
    split
    · next late => exact ⟨late, ends⟩
    · next early => exact inductionHypothesis (not_le.mp early)

theorem monthFromDay_spec (day : ℤ) : monthFromDay day < 12 ∧
    daysBefore (isLeap (yearFromDay day)) (monthFromDay day) ≤ dayInYear day ∧
      dayInYear day < daysBefore (isLeap (yearFromDay day)) (monthFromDay day + 1) :=
  ⟨Nat.lt_succ_of_le (lastMonth_le _ _ _),
    lastMonth_spec (dayInYear_spec day).1 (dayInYear_spec day).2⟩

theorem daysBefore_mono (leap : Bool) : ∀ month ≤ 12, ∀ earlier ≤ month,
    daysBefore leap earlier ≤ daysBefore leap month := by
  cases leap <;> decide

theorem month_unique {leap : Bool} {day : ℤ} {month other : ℕ} (inYear : month < 12)
    (otherInYear : other < 12) (starts : daysBefore leap month ≤ day)
    (ends : day < daysBefore leap (month + 1)) (otherStarts : daysBefore leap other ≤ day)
    (otherEnds : day < daysBefore leap (other + 1)) : month = other := by
  by_contra differ
  rcases Nat.lt_or_gt_of_ne differ with earlier | later
  · have before := daysBefore_mono leap other (by omega) (month + 1) earlier
    omega
  · have before := daysBefore_mono leap month (by omega) (other + 1) later
    omega

/-- A day has its own fields. -/
theorem makeDay_fields (day : ℤ) :
    makeDay (yearFromDay day) (monthFromDay day) (dateFromDay day) = day := by
  have inYear := (monthFromDay_spec day).1
  rw [makeDay, Nat.div_eq_of_lt inYear, Nat.mod_eq_of_lt inYear, dateFromDay, dayInYear,
    Nat.cast_zero, add_zero]
  omega

theorem dateFromDay_pos (day : ℤ) : 1 ≤ dateFromDay day := by
  have spec := monthFromDay_spec day
  rw [dateFromDay]
  omega

/-- A date within its month. -/
structure IsDate (year : ℤ) (month : ℕ) (date : ℤ) : Prop where
  inYear : month < 12
  first : 1 ≤ date
  last : date ≤ daysBefore (isLeap year) (month + 1) - daysBefore (isLeap year) month

theorem isDate_fields (day : ℤ) :
    IsDate (yearFromDay day) (monthFromDay day) (dateFromDay day) := by
  obtain ⟨inYear, starts, ends⟩ := monthFromDay_spec day
  exact ⟨inYear, dateFromDay_pos day, by rw [dateFromDay]; omega⟩

/-- The fields that a date is made of. -/
theorem IsDate.fields {year date : ℤ} {month : ℕ} (isDate : IsDate year month date) :
    yearFromDay (makeDay year month date) = year ∧
      monthFromDay (makeDay year month date) = month ∧
        dateFromDay (makeDay year month date) = date := by
  obtain ⟨inYear, first, last⟩ := isDate
  have isDay : makeDay year month date =
      dayFromYear year + daysBefore (isLeap year) month + date - 1 := by
    rw [makeDay, Nat.div_eq_of_lt inYear, Nat.mod_eq_of_lt inYear, Nat.cast_zero, add_zero]
  have starts : 0 ≤ daysBefore (isLeap year) month :=
    daysBefore_mono (isLeap year) month (by omega) 0 (Nat.zero_le _)
  have ends := daysBefore_mono (isLeap year) 12 le_rfl (month + 1) inYear
  have isYear : yearFromDay (makeDay year month date) = year := by
    refine yearFromDay_eq ?_ ?_
    · omega
    · rw [dayFromYear_succ]
      omega
  have within : dayInYear (makeDay year month date) =
      daysBefore (isLeap year) month + date - 1 := by
    rw [dayInYear, isYear, isDay]
    omega
  have spec := monthFromDay_spec (makeDay year month date)
  rw [isYear, within] at spec
  have isMonth : monthFromDay (makeDay year month date) = month :=
    month_unique spec.1 inYear spec.2.1 spec.2.2 (by omega) (by omega)
  refine ⟨isYear, isMonth, ?_⟩
  rw [dateFromDay, isYear, isMonth, within]
  omega

theorem makeDay_month (year : ℤ) (month : ℕ) (date : ℤ) :
    makeDay year month date = makeDay (year + (month / 12 : ℕ)) (month % 12) date := by
  have inYear : month % 12 < 12 := Nat.mod_lt _ (by decide)
  rw [makeDay, makeDay, Nat.div_eq_of_lt inYear, Nat.mod_mod, Nat.cast_zero, add_zero]

/-- The first day of any month. -/
theorem isDate_first (year : ℤ) {month : ℕ} (inYear : month < 12) : IsDate year month 1 :=
  ⟨inYear, le_rfl, by
    have positive := daysBefore_lt_succ (isLeap year) month inYear
    omega⟩

theorem dayFromYear_le_makeDay (year : ℤ) (month : ℕ) {date : ℤ} (first : 1 ≤ date) :
    dayFromYear year ≤ makeDay year month date := by
  have inYear : month % 12 < 12 := Nat.mod_lt _ (by decide)
  have starts : 0 ≤ daysBefore (isLeap (year + (month / 12 : ℕ))) (month % 12) :=
    daysBefore_mono _ _ inYear.le 0 (Nat.zero_le _)
  have later : dayFromYear year ≤ dayFromYear (year + (month / 12 : ℕ)) :=
    dayFromYear_mono (by omega)
  rw [makeDay]
  omega

theorem makeDay_add (year : ℤ) (month : ℕ) (date more : ℤ) :
    makeDay year month (date + more) = makeDay year month date + more := by
  rw [makeDay, makeDay]
  omega

/-! ### Instants -/

def msPerDay : ℤ := 86400000

/-- What a valid `Date` holds: milliseconds since the start of 1970 in UTC. -/
structure Instant where
  ms : ℤ
  valid : -8640000000000000 ≤ ms ∧ ms ≤ 8640000000000000
  deriving DecidableEq

def timeClip (ms : ℤ) : Option Instant :=
  if valid : -8640000000000000 ≤ ms ∧ ms ≤ 8640000000000000 then some ⟨ms, valid⟩ else none

/-- The day of an instant in a zone with the given offset. -/
def Instant.localDay (offset : ℤ) (instant : Instant) : ℤ := (instant.ms + offset) / msPerDay

/-- Two digits mean a year of the twentieth century. -/
def makeFullYear (year : ℤ) : ℤ := if 0 ≤ year ∧ year ≤ 99 then 1900 + year else year

/-- `new Date(year, month, date)`, if it is valid. -/
def newDate (offset year : ℤ) (month : ℕ) (date : ℤ) : Option Instant :=
  timeClip (msPerDay * makeDay (makeFullYear year) month date - offset)

theorem timeClip_eq_some {ms : ℤ} {instant : Instant} :
    timeClip ms = some instant ↔ instant.ms = ms := by
  obtain ⟨own, valid⟩ := instant
  rw [timeClip]
  split
  · rw [Option.some_inj, Instant.mk.injEq]
    exact eq_comm
  · next invalid =>
    refine iff_of_false (Option.some_ne_none _).symm fun same => invalid ?_
    rw [← show own = ms from same]
    exact valid

/-! ### The text of a day -/

/-- `String(number).padStart(width, "0")` -/
def padded (width number : ℕ) : List Char := (Nat.toDigits 10 number).leftpad width '0'

/-- Years of more than four digits and negative years have a sign and six digits. -/
def yearText (year : ℤ) : List Char :=
  if 0 ≤ year ∧ year ≤ 9999 then padded 4 year.toNat
  else (if 0 ≤ year then '+' else '-') :: padded 6 year.natAbs

def dayText (day : ℤ) : List Char :=
  yearText (yearFromDay day) ++ '-' :: (padded 2 (monthFromDay day + 1) ++
    '-' :: padded 2 (dateFromDay day).toNat)

def timeText (ms : ℕ) : List Char :=
  padded 2 (ms / 3600000) ++ ':' :: (padded 2 (ms / 60000 % 60) ++
    ':' :: (padded 2 (ms / 1000 % 60) ++ '.' :: padded 3 (ms % 1000)))

def toISOString (instant : Instant) : List Char :=
  dayText (instant.localDay 0) ++ 'T' :: (timeText (instant.ms % msPerDay).toNat ++ ['Z'])

/-- A day as `YYYY-MM-DD`. -/
def readDay (text : List Char) : Option ℤ :=
  match Lines.split '-' text with
  | [year, month, date] =>
      let number := (Nat.ofDigitChars 10 · 0)
      let leap := isLeap (number year)
      if year.length = 4 ∧ month.length = 2 ∧ date.length = 2 ∧
          (year ++ month ++ date).all Char.isDigit ∧ 1 ≤ number month ∧ number month ≤ 12 ∧
            1 ≤ number date ∧ (number date : ℤ) ≤
              daysBefore leap (number month) - daysBefore leap (number month - 1) then
        some (makeDay (number year) (number month - 1) (number date))
      else none
  | _ => none

theorem length_padded {width number : ℕ} (positive : 0 < width) (bound : number < 10 ^ width) :
    (padded width number).length = width := by
  rw [padded, List.length_leftpad]
  exact max_eq_left ((Nat.length_toDigits_le_iff (by decide) positive).mpr bound)

theorem isDigit_padded {width number : ℕ} :
    ∀ character ∈ padded width number, character.isDigit = true := by
  intro character member
  rw [padded, List.leftpad, List.mem_append] at member
  rcases member with zero | digit
  · rw [List.eq_of_mem_replicate zero]
    rfl
  · exact Nat.isDigit_of_mem_toDigits (by decide) (by decide) digit

theorem ofDigitChars_padded (width number : ℕ) :
    Nat.ofDigitChars 10 (padded width number) 0 = number := by
  rw [padded, List.leftpad, Nat.ofDigitChars_append, Nat.ofDigitChars_replicate_zero, mul_zero,
    Nat.ofDigitChars_ten_toDigits]

theorem hyphen_not_mem_padded (width number : ℕ) : '-' ∉ padded width number :=
  fun member => Bool.false_ne_true (isDigit_padded '-' member)

theorem split_dayText {day : ℤ} (noSign : 0 ≤ yearFromDay day ∧ yearFromDay day ≤ 9999) :
    Lines.split '-' (dayText day) = [padded 4 (yearFromDay day).toNat,
      padded 2 (monthFromDay day + 1), padded 2 (dateFromDay day).toNat] := by
  rw [dayText, yearText, if_pos noSign, Lines.split_line_append _ (hyphen_not_mem_padded _ _),
    Lines.split_line_append _ (hyphen_not_mem_padded _ _),
    Lines.split_of_unbroken _ (hyphen_not_mem_padded _ _)]

theorem date_le (day : ℤ) : dateFromDay day ≤ 31 := by
  have months : ∀ leap, ∀ month < 12,
      daysBefore leap (month + 1) - daysBefore leap month ≤ 31 := by decide
  exact (isDate_fields day).last.trans (months _ _ (isDate_fields day).inYear)

theorem length_dayText {day : ℤ} (noSign : 0 ≤ yearFromDay day ∧ yearFromDay day ≤ 9999) :
    (padded 4 (yearFromDay day).toNat).length = 4 ∧
      (padded 2 (monthFromDay day + 1)).length = 2 ∧
        (padded 2 (dateFromDay day).toNat).length = 2 := by
  have month := (monthFromDay_spec day).1
  have date := date_le day
  refine ⟨length_padded (by decide) ?_, length_padded (by decide) ?_, length_padded (by decide) ?_⟩
  all_goals omega

/-- The text of a day reads as the day. -/
theorem readDay_dayText {day : ℤ} (noSign : 0 ≤ yearFromDay day ∧ yearFromDay day ≤ 9999) :
    readDay (dayText day) = some day := by
  have isDate := isDate_fields day
  have year : ((yearFromDay day).toNat : ℤ) = yearFromDay day := Int.toNat_of_nonneg noSign.1
  have date : ((dateFromDay day).toNat : ℤ) = dateFromDay day :=
    Int.toNat_of_nonneg (by have first := isDate.first; omega)
  obtain ⟨four, two, lastTwo⟩ := length_dayText noSign
  rw [readDay, split_dayText noSign]
  dsimp only
  rw [if_pos]
  · rw [ofDigitChars_padded, ofDigitChars_padded, ofDigitChars_padded, year, date,
      Nat.add_sub_cancel, makeDay_fields]
  rw [ofDigitChars_padded, ofDigitChars_padded, ofDigitChars_padded, year, date,
    Nat.add_sub_cancel]
  refine ⟨four, two, lastTwo, ?_, Nat.le_add_left _ _, isDate.inYear, ?_, isDate.last⟩
  · rw [List.all_eq_true]
    intro character member
    rcases List.mem_append.mp member with either | third
    · rcases List.mem_append.mp either with first | second
      · exact isDigit_padded character first
      · exact isDigit_padded character second
    · exact isDigit_padded character third
  · have first := isDate.first
    omega

theorem readDay_plus (text : List Char) : readDay ('+' :: text) = none := by
  rw [readDay, Lines.split, if_neg (by decide)]
  cases Lines.split '-' text with
  | nil => rfl
  | cons line lines =>
    rcases lines with _ | ⟨month, _ | ⟨date, _ | ⟨more, rest⟩⟩⟩
    · rfl
    · rfl
    · exact if_neg fun fits => Bool.false_ne_true fits.2.2.2.1
    · rfl

theorem readDay_minus (text : List Char) : readDay ('-' :: text) = none := by
  rw [readDay, Lines.split, if_pos rfl]
  rcases Lines.split '-' text with _ | ⟨month, _ | ⟨date, _ | ⟨more, rest⟩⟩⟩
  · rfl
  · rfl
  · exact if_neg fun fits => absurd fits.1 (by decide)
  · rfl

/-- The text of an instant starts with the text of its day, which is readable just for years of
four digits. -/
theorem readDay_toISOString (instant : Instant) :
    readDay ((toISOString instant).take 10) =
      if 0 ≤ yearFromDay (instant.localDay 0) ∧ yearFromDay (instant.localDay 0) ≤ 9999 then
        some (instant.localDay 0)
      else none := by
  split
  · next noSign =>
    have ten : (dayText (instant.localDay 0)).length = 10 := by
      obtain ⟨four, two, lastTwo⟩ := length_dayText noSign
      rw [dayText, yearText, if_pos noSign, List.length_append, List.length_cons,
        List.length_append, List.length_cons, four, two, lastTwo]
    rw [toISOString, List.take_left' ten, readDay_dayText noSign]
  · next signed =>
    rw [toISOString, dayText, yearText, if_neg signed]
    split
    · exact readDay_plus _
    · exact readDay_minus _

end JavaScript.Calendar
