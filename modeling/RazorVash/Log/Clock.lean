import RazorVash.Text.Basic

/-!
Points of time in the civil calendar. Days are counted from the first of January 1970; a year is
taken to begin in March, so that the leap day is its last one, and four hundred years are always
146097 days.
-/
namespace RazorVash.Log

structure Date where
  year : Int
  month : Nat
  day : Nat
deriving DecidableEq, Repr

def daysInEra : Nat := 146097

def Date.ofDay (days : Int) : Date :=
  -- the first of March of the year 0 lies 719468 days before 1970
  let fromMarch := days + 719468
  let era := fromMarch / daysInEra
  let dayOfEra := (fromMarch % daysInEra).toNat
  let yearOfEra := (dayOfEra - dayOfEra / 1460 + dayOfEra / 36524 - dayOfEra / 146096) / 365
  let dayOfYear := dayOfEra - (365 * yearOfEra + yearOfEra / 4 - yearOfEra / 100)
  let monthFromMarch := (5 * dayOfYear + 2) / 153
  let month := if monthFromMarch < 10 then monthFromMarch + 3 else monthFromMarch - 9
  { year := yearOfEra + era * 400 + (if month ≤ 2 then 1 else 0)
    month
    day := dayOfYear - (153 * monthFromMarch + 2) / 5 + 1 }

def secondsInDay : Nat := 86400

namespace Clock

def dayText (seconds : Int) : Text :=
  let date := Date.ofDay (seconds / secondsInDay)
  Text.ofInt date.year ++ '-' :: Text.decimal 2 date.month ++ '-' :: Text.decimal 2 date.day

def timeText (seconds : Int) : Text :=
  let second := (seconds % secondsInDay).toNat
  Text.decimal 2 (second / 3600) ++ ':' :: Text.decimal 2 (second / 60 % 60) ++
    ':' :: Text.decimal 2 (second % 60)

def plain (seconds : Int) : Text := dayText seconds ++ ' ' :: timeText seconds

/-- The day and the time with microseconds, told to be universal time. -/
def precise (microseconds : Int) : Text :=
  let seconds := microseconds / 1000000
  dayText seconds ++ 'T' :: timeText seconds ++
    '.' :: Text.decimal 6 (microseconds % 1000000).toNat ++ "+00:00".toList

end Clock

example : Clock.plain 951782399 = "2000-02-28 23:59:59".toList := by decide

example : Clock.plain (-1) = "1969-12-31 23:59:59".toList := by decide

end RazorVash.Log
