import Cookbook.Library.Number

/-!
# Dates

The date of a day of the Gregorian calendar, and the numerals of two digits with which dates and times
of the day are printed.
-/
namespace Library.Calendar

open Library.Text

/-- A calendar date. -/
structure CivilDate where
  /-- The year. -/
  year : Int
  /-- The month, from one. -/
  month : Int
  /-- The day of the month, from one. -/
  day : Int
  deriving DecidableEq

/-- The date of a day that is counted from the first of January 1970. Years are counted from March
on, so that a leap day comes last, in eras of 400 years. -/
def civilDate (days : Int) : CivilDate :=
  let shifted := days + 719468
  let era := shifted / 146097
  let dayOfEra := shifted % 146097
  let yearOfEra := (dayOfEra - dayOfEra / 1460 + dayOfEra / 36524 - dayOfEra / 146096) / 365
  let dayOfYear := dayOfEra - (365 * yearOfEra + yearOfEra / 4 - yearOfEra / 100)
  let shiftedMonth := (5 * dayOfYear + 2) / 153
  let month := if shiftedMonth < 10 then shiftedMonth + 3 else shiftedMonth - 9
  { year := yearOfEra + era * 400 + if month ≤ 2 then 1 else 0
    month
    day := dayOfYear - (153 * shiftedMonth + 2) / 5 + 1 }

/-- A number in at least two digits. -/
def twoDigits (number : Int) : Bytes :=
  if number < 10 then 0x30 :: decimal number else decimal number

/-- A day of an era lies in its year, but for a few days. -/
theorem dayOfYear_near {day year : Int} (first : 0 ≤ day) (last : day < 146097)
    (counted : year = (day - day / 1460 + day / 36524 - day / 146096) / 365) :
    -60 ≤ day - (365 * year + year / 4 - year / 100) ∧
      day - (365 * year + year / 4 - year / 100) ≤ 425 := by
  omega

/-- Months and days are those of a calendar. -/
theorem civilDate_inside (days : Int) :
    (1 ≤ (civilDate days).month ∧ (civilDate days).month ≤ 12) ∧
      1 ≤ (civilDate days).day ∧ (civilDate days).day ≤ 31 := by
  have near := dayOfYear_near (Int.emod_nonneg (days + 719468) (by decide : (146097 : Int) ≠ 0))
    (Int.emod_lt_of_pos (days + 719468) (by decide)) rfl
  simp only [civilDate]
  generalize (days + 719468) % 146097 - _ = dayOfYear at near ⊢
  constructor
  · split <;> omega
  · omega

/-- A number below a hundred is printed in two digits. -/
theorem twoDigits_length {number : Int} (low : 0 ≤ number) (high : number < 100) :
    (twoDigits number).length = 2 := by
  have all : ∀ natural < 100, (twoDigits (Int.ofNat natural)).length = 2 := by decide +kernel
  obtain ⟨natural, rfl⟩ := Int.eq_ofNat_of_zero_le low
  exact all natural (by omega)

/-- A number of four digits is printed in four. -/
theorem decimal_fourDigits {number : Int} (low : 1000 ≤ number) (high : number ≤ 9999) :
    (decimal number).length = 4 := by
  obtain ⟨natural, rfl⟩ := Int.eq_ofNat_of_zero_le (by omega : 0 ≤ number)
  obtain ⟨-, all, value⟩ := decimalNat_spec natural
  have short : (decimalNat natural).length ≤ 4 :=
    prependDigits_length (natural + 1) natural 3 [] (show natural < 10000 by omega)
  have long := readDigits_lt (decimalNat natural) fun c member => (all c member).1
  rw [value] at long
  refine Nat.le_antisymm short (Nat.le_of_not_lt fun shorter => ?_)
  have power : 10 ^ (decimalNat natural).length ≤ 10 ^ 3 :=
    Nat.pow_le_pow_right (by decide) (Nat.le_of_lt_succ shorter)
  rw [Nat.pow_eq] at long
  omega

end Library.Calendar
