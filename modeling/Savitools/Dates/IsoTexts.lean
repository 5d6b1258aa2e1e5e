import Savitools.Strings.Decimals

namespace Dates.IsoTexts

open Strings.CodeUnits Strings.Decimals

def millisecondsPerDay : Int := 86400000

/-- Days since 1970-01-01, from milliseconds since then. -/
def utcDay (ms : Int) : Int := ms / millisecondsPerDay

/-- Year, month and day of the proleptic Gregorian calendar. The years are counted from
March on, in eras of 400. -/
def civil (day : Int) : Int × Nat × Nat :=
  let shifted := day + 719468
  let era := shifted / 146097
  let dayOfEra := (shifted % 146097).toNat
  let yearOfEra := (dayOfEra - dayOfEra / 1460 + dayOfEra / 36524 - dayOfEra / 146096) / 365
  let dayOfYear := dayOfEra - (365 * yearOfEra + yearOfEra / 4 - yearOfEra / 100)
  let monthFromMarch := (5 * dayOfYear + 2) / 153
  let month := if monthFromMarch < 10 then monthFromMarch + 3 else monthFromMarch - 9
  let year : Int := yearOfEra + era * 400
  (if month ≤ 2 then year + 1 else year, month, dayOfYear - (153 * monthFromMarch + 2) / 5 + 1)

/-- Years beyond four digits have a sign and six digits. -/
def yearText (year : Int) : Text :=
  if 0 ≤ year ∧ year ≤ 9999 then padStart (ofNat year.natAbs) 4
  else (if year < 0 then unit '-' else unit '+') :: padStart (ofNat year.natAbs) 6

def civilText : Int × Nat × Nat → Text
  | (year, month, date) => yearText year ++ unit '-' :: padStart (ofNat month) 2 ++ unit '-' :: padStart (ofNat date) 2

def dateText (day : Int) : Text := civilText (civil day)

def timeText (ms : Nat) : Text :=
  unit 'T' :: padStart (ofNat (ms / 3600000)) 2 ++ unit ':' :: padStart (ofNat (ms / 60000 % 60)) 2 ++
    unit ':' :: padStart (ofNat (ms / 1000 % 60)) 2 ++ unit '.' :: padStart (ofNat (ms % 1000)) 3 ++ [unit 'Z']

def toISOString (ms : Int) : Text := dateText (utcDay ms) ++ timeText (ms % millisecondsPerDay).toNat

theorem length_padStart (t : Text) (n : Nat) : n ≤ (padStart t n).length := by
  rw [padStart, List.length_append, List.length_replicate]
  omega

theorem length_yearText (year : Int) : 4 ≤ (yearText year).length := by
  rw [yearText]
  split
  · exact length_padStart _ 4
  · exact Nat.le_succ_of_le (Nat.le_trans (by decide) (length_padStart _ 6))

theorem length_civilText : ∀ date, 10 ≤ (civilText date).length
  | (year, month, date) => by
      have hyear := length_yearText year
      have hmonth := length_padStart (ofNat month) 2
      have hdate := length_padStart (ofNat date) 2
      simp only [civilText, List.length_append, List.length_cons]
      omega

theorem take_toISOString (ms : Int) : (toISOString ms).take 10 = (dateText (utcDay ms)).take 10 :=
  List.take_append_of_le_length (length_civilText _)

example : toISOString 1792231200000 = text "2026-10-17T10:00:00.000Z" := by decide

end Dates.IsoTexts
