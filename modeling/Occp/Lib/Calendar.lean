import Mathlib.Data.Int.LeastGreatest
import Mathlib.Order.Monotone.Basic

/-!
# The Gregorian calendar

Days are numbered since 1 January 1970. A year starts on 1 March here, so that 29 February is the last
day of a year, and an era of 400 years has 146097 days.
-/

namespace Occp.Lib

/-! ## Years -/

/-- The year of an era, by the day of the era. -/
def yearOfEra (dayOfEra : Nat) : Nat :=
  (dayOfEra - dayOfEra / 1460 + dayOfEra / 36524 - dayOfEra / 146096) / 365

/-- Which day of its year a day is, from 0 on. -/
def dayOfYear (days : Int) : Nat :=
  let dayOfEra := ((days + 719468) % 146097).toNat
  dayOfEra - (365 * yearOfEra dayOfEra + yearOfEra dayOfEra / 4 - yearOfEra dayOfEra / 100)

/-- The month and the day of the month. -/
def dateOfYear (dayOfYear : Nat) : Nat × Nat :=
  let month := (5 * dayOfYear + 2) / 153
  (if month < 10 then month + 3 else month - 9, dayOfYear - (153 * month + 2) / 5 + 1)

def leapDays (y : Int) : Int := y / 4 - y / 100 + y / 400

def startOfYear (y : Int) : Int := 365 * y + leapDays y - 719468

/-- A year has a leap day in every fourth year at most. -/
theorem leapDays_succ (y : Int) : leapDays (y + 1) = leapDays y ∨ leapDays (y + 1) = leapDays y + 1 ∧ (y + 1) % 4 = 0 := by
  have hquarters (y : Int) : leapDays y = y / 4 - y / 4 / 25 + y / 4 / 25 / 4 := by
    unfold leapDays
    omega
  rw [hquarters, hquarters]
  omega

theorem leapDays_era (era y : Int) : leapDays (400 * era + y) = 97 * era + leapDays y := by
  have h4 : (400 * era + y) / 4 = 100 * era + y / 4 := by omega
  have h100 : (400 * era + y) / 100 = 4 * era + y / 100 := by omega
  have h400 : (400 * era + y) / 400 = era + y / 400 := by omega
  unfold leapDays
  omega

theorem leapDays_mono {y y' : Int} (h : y ≤ y') : leapDays y ≤ leapDays y' := by
  refine monotone_int_of_le_succ (fun y => ?_) h
  have hsucc := leapDays_succ y
  omega

theorem startOfYear_mono {y y' : Int} (h : y ≤ y') : startOfYear y ≤ startOfYear y' := by
  have hleaps := leapDays_mono h
  unfold startOfYear
  omega

/-- The formula for the year is right on the first and on the last day of each year of an era. -/
theorem yearOfEra_ends : ∀ y < 400, yearOfEra (365 * y + y / 4 - y / 100) = y ∧
    yearOfEra (365 * (y + 1) + (y + 1) / 4 - (y + 1) / 100 + (y + 1) / 400 - 1) = y := by
  decide +kernel

theorem yearOfEra_mono {d d' : Nat} (hle : d ≤ d') (h : d' < 146097) : yearOfEra d ≤ yearOfEra d' := by
  apply Nat.div_le_div_right
  omega

theorem exists_year (days : Int) : ∃ y, startOfYear y ≤ days ∧ days < startOfYear (y + 1) := by
  have habove : ∀ y, startOfYear y ≤ days → y ≤ days.natAbs + 719471 := by
    intro y hy
    unfold startOfYear leapDays at hy
    omega
  have hbelow : startOfYear (-(days.natAbs : Int)) ≤ days := by
    unfold startOfYear leapDays
    omega
  obtain ⟨y, hy, hgreatest⟩ := Int.exists_greatest_of_bdd ⟨_, habove⟩ ⟨_, hbelow⟩
  refine ⟨y, hy, ?_⟩
  by_contra hle
  have := hgreatest (y + 1) (not_lt.mp hle)
  omega

theorem yearOfEra_eq {d y : Nat} (hy : y < 400) (hfirst : 365 * y + y / 4 - y / 100 ≤ d)
    (hlast : d < 365 * (y + 1) + (y + 1) / 4 - (y + 1) / 100 + (y + 1) / 400) : yearOfEra d = y := by
  obtain ⟨hatFirst, hatLast⟩ := yearOfEra_ends y hy
  have hbound : ∀ y < 400, 365 * (y + 1) + (y + 1) / 4 - (y + 1) / 100 + (y + 1) / 400 ≤ 146097 := by decide +kernel
  have hera := hbound y hy
  refine le_antisymm ?_ ?_
  · have hle := yearOfEra_mono (Nat.le_sub_one_of_lt hlast) (by omega)
    rwa [hatLast] at hle
  · have hle := yearOfEra_mono hfirst (by omega)
    rwa [hatFirst] at hle

/-- The era of a day, its year of the era and its day of the era. -/
theorem exists_era {days y : Int} (hfirst : startOfYear y ≤ days) (hlast : days < startOfYear (y + 1)) :
    ∃ (era : Int) (yoe d : Nat), y = 400 * era + yoe ∧ yoe < 400 ∧ (days + 719468) / 146097 = era ∧
      ((days + 719468) % 146097).toNat = d ∧ yearOfEra d = yoe ∧ days + 719468 = 146097 * era + d := by
  obtain ⟨era, yoe, hyoe, rfl⟩ : ∃ (era : Int) (yoe : Nat), yoe < 400 ∧ y = 400 * era + yoe :=
    ⟨y / 400, (y % 400).toNat, by omega, by omega⟩
  have hleaps := leapDays_era era yoe
  have hleaps' := leapDays_era era (yoe + 1)
  have hsmall : ∀ yoe : Nat, yoe < 400 → 0 ≤ leapDays yoe ∧ leapDays (yoe + 1) ≤ 97 := by decide +kernel
  obtain ⟨hpos, hle⟩ := hsmall yoe hyoe
  rw [← add_assoc] at hleaps'
  unfold startOfYear at *
  obtain ⟨d, hd⟩ : ∃ d : Nat, days + 719468 = 146097 * era + d := ⟨(days + 719468 - 146097 * era).toNat, by omega⟩
  refine ⟨era, yoe, d, rfl, hyoe, by omega, by omega, ?_, hd⟩
  unfold leapDays at *
  apply yearOfEra_eq hyoe <;> omega

/-- The year that a day falls in. -/
def yearOfDay (days : Int) : Int := yearOfEra ((days + 719468) % 146097).toNat + (days + 719468) / 146097 * 400

theorem yearOfDay_eq {days y : Int} (hfirst : startOfYear y ≤ days) (hlast : days < startOfYear (y + 1)) : yearOfDay days = y := by
  obtain ⟨era, yoe, d, hy, -, hera, hday, hyear, -⟩ := exists_era hfirst hlast
  rw [yearOfDay, hera, hday, hyear]
  omega

theorem dayOfYear_eq {days y : Int} (hfirst : startOfYear y ≤ days) (hlast : days < startOfYear (y + 1)) :
    dayOfYear days = days - startOfYear y := by
  obtain ⟨era, yoe, d, rfl, hyoe, -, hday, hyear, hd⟩ := exists_era hfirst hlast
  have hleaps := leapDays_era era yoe
  unfold dayOfYear
  simp only [hday, hyear]
  unfold startOfYear at *
  rw [hleaps] at hfirst ⊢
  unfold leapDays at *
  omega

theorem dayOfYear_lt (days : Int) : dayOfYear days < 366 := by
  obtain ⟨y, hfirst, hlast⟩ := exists_year days
  have hday := dayOfYear_eq hfirst hlast
  have hleaps := leapDays_succ y
  unfold startOfYear at *
  omega

/-- The year and the day of the year determine a day. -/
theorem eq_of_yearOfDay {days days' : Int} (hyear : yearOfDay days = yearOfDay days') (hday : dayOfYear days = dayOfYear days') :
    days = days' := by
  obtain ⟨y, hfirst, hlast⟩ := exists_year days
  obtain ⟨y', hfirst', hlast'⟩ := exists_year days'
  have heq : y = y' := by rw [← yearOfDay_eq hfirst hlast, hyear, yearOfDay_eq hfirst' hlast']
  subst heq
  have h := dayOfYear_eq hfirst hlast
  have h' := dayOfYear_eq hfirst' hlast'
  omega

theorem dateOfYear_bounds {day : Nat} (h : day < 366) : (dateOfYear day).1 ≤ 12 ∧ (dateOfYear day).2 ≤ 31 := by
  unfold dateOfYear
  dsimp only
  split <;> omega

theorem eq_of_dateOfYear {day day' : Nat} (h : day < 366) (h' : day' < 366) (heq : dateOfYear day = dateOfYear day') :
    day = day' := by
  unfold dateOfYear at heq
  simp only [Prod.mk.injEq] at heq
  obtain ⟨hmonth, hday⟩ := heq
  split at hmonth <;> split at hmonth <;> omega

/-! ## Dates -/

/-- A date that each year has comes again within two years. -/
theorem exists_later_day (today : Int) {day : Nat} (h : day < 365) :
    ∃ days, today < days ∧ days ≤ today + 731 ∧ dayOfYear days = day := by
  obtain ⟨y, hfirst, hlast⟩ := exists_year today
  have hnext : startOfYear (y + 1) + 365 ≤ startOfYear (y + 1 + 1) := by
    have hleaps := leapDays_succ (y + 1)
    unfold startOfYear
    omega
  have hlength : startOfYear (y + 1) ≤ startOfYear y + 366 := by
    have hleaps := leapDays_succ y
    unfold startOfYear
    omega
  have hday : dayOfYear (startOfYear (y + 1) + day) = startOfYear (y + 1) + day - startOfYear (y + 1) :=
    dayOfYear_eq (by omega) (by omega)
  exact ⟨startOfYear (y + 1) + day, by omega, by omega, by omega⟩

/-- From one 29 February to the next there are four years and a day at least. -/
theorem leapDay_gap {days days' : Int} (h : dayOfYear days = 365) (h' : dayOfYear days' = 365) (hlt : days < days') :
    days + 365 * 4 < days' := by
  obtain ⟨y, hfirst, hlast⟩ := exists_year days
  obtain ⟨y', hfirst', hlast'⟩ := exists_year days'
  have hday := dayOfYear_eq hfirst hlast
  have hday' := dayOfYear_eq hfirst' hlast'
  have hleap {y : Int} (hlong : startOfYear y + 365 < startOfYear (y + 1)) :
      (y + 1) % 4 = 0 ∧ leapDays (y + 1) = leapDays y + 1 := by
    have hleaps := leapDays_succ y
    unfold startOfYear at hlong
    omega
  obtain ⟨hfour, -⟩ := hleap (y := y) (by omega)
  obtain ⟨hfour', hleaps'⟩ := hleap (y := y') (by omega)
  have hyears : y < y' := by
    by_contra hle
    rcases (not_lt.mp hle).eq_or_lt with rfl | hlt'
    · omega
    · have hends := startOfYear_mono (Int.add_one_le_of_lt hlt')
      omega
  have hstart := startOfYear_mono (show y + 1 + 3 ≤ y' by omega)
  have hleaps := leapDays_mono (show y + 1 ≤ y + 1 + 3 by omega)
  unfold startOfYear at *
  omega

end Occp.Lib
