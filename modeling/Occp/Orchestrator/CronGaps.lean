import Occp.Lib.Calendar
import Occp.Orchestrator.CronGrammar

/-!
# Gaps between matches (`CronExpression.next_run`)

The search ends 1460 days after its start.
-/

namespace Occp.Cron

open Lib (dayOfYear dateOfYear)

theorem monthAndDay_eq (days : Int) : monthAndDay days = dateOfYear (dayOfYear days) := rfl

namespace CronExpression

theorem matches_iff {e : CronExpression} {m : Int} : e.matches m = true ↔
    minuteOf m ∈ e.minute ∧ (m / 60 % 24).toNat ∈ e.hour ∧
      ((dateOfYear (dayOfYear (m / 1440))).2 ∈ e.dayOfMonth ∧ (dateOfYear (dayOfYear (m / 1440))).1 ∈ e.month) ∧
      ((m / 1440 + 4) % 7).toNat ∈ e.dayOfWeek := by
  unfold CronExpression.matches
  simp only [monthAndDay_eq, Bool.and_eq_true, List.contains_iff_mem, and_assoc]

/-- The expression has the date that is this day of a year. -/
def HasDay (e : CronExpression) (day : Nat) : Prop := (dateOfYear day).2 ∈ e.dayOfMonth ∧ (dateOfYear day).1 ∈ e.month

instance (e : CronExpression) (day : Nat) : Decidable (e.HasDay day) := inferInstanceAs (Decidable (_ ∧ _))

/-- With a date that each year has, on whatever weekday, there is a hit after any start. -/
theorem exists_hit (e : ParsedExpression) (after : DateTime) (hlimit : after.instant + horizon ≤ lastInstant)
    (hminute : e.minute ≠ []) (hhour : e.hour ≠ []) (hweekday : ∀ d < 7, d ∈ e.dayOfWeek) {day : Nat} (hday : day < 365)
    (hdate : e.HasDay day) : ∃ m, e.Hits after m := by
  obtain ⟨minute, hmem⟩ := List.exists_mem_of_ne_nil _ hminute
  obtain ⟨hour, hmem'⟩ := List.exists_mem_of_ne_nil _ hhour
  have hlt := e.minute_lt minute hmem
  have hlt' := e.hour_lt hour hmem'
  obtain ⟨days, hlater, hsoon, rfl⟩ := Lib.exists_later_day (after.instant / Cron.minute / 1440) hday
  have hminuteOf : minuteOf (1440 * days + 60 * hour + minute) = minute := by
    unfold minuteOf
    omega
  have hhourOf : ((1440 * days + 60 * hour + minute : Int) / 60 % 24).toNat = hour := by omega
  have hdays : (1440 * days + 60 * hour + minute : Int) / 1440 = days := by omega
  refine ⟨1440 * days + 60 * hour + minute, ?_, ?_, ?_, ?_⟩
  · unfold Cron.minute second at *
    omega
  · unfold horizon Cron.minute second at *
    omega
  · unfold horizon Cron.minute second at *
    omega
  · rw [matches_iff, hminuteOf, hhourOf, hdays]
    exact ⟨hmem, hmem', hdate, hweekday _ (by omega)⟩

/-- An expression with 29 February only has no hit after that day. -/
theorem same_day_of_hits {e : CronExpression} (hleap : ∀ day < 365, ¬ e.HasDay day) {after : DateTime} {m : Int}
    (hafter : dayOfYear (after.instant / Cron.minute / 1440) = 365) (h : e.Hits after m) :
    m / 1440 = after.instant / Cron.minute / 1440 := by
  obtain ⟨-, -, hdate, -⟩ := matches_iff.mp h.is_match
  have hday : dayOfYear (m / 1440) = 365 := by
    by_contra hne
    have hlt := Lib.dayOfYear_lt (m / 1440)
    exact hleap (dayOfYear (m / 1440)) (by omega) hdate
  by_contra hne
  have hlater := h.later
  have hwithin := h.within
  have hlt : after.instant / Cron.minute / 1440 < m / 1440 := by
    unfold Cron.minute second at *
    omega
  have hgap := Lib.leapDay_gap hafter hday hlt
  unfold horizon Cron.minute second at *
  omega

/-! ## Schedules that keep firing -/

def KeepsFiring (e : CronExpression) (after : DateTime) : Prop :=
  (∃ m, after.instant < m * Cron.minute ∧ m * Cron.minute ≤ lastInstant ∧ e.matches m = true) →
    ∃ t, e.nextRunOrRaise after = .ok t

/-- The first later minute that matches. -/
def IsNextMatch (e : CronExpression) (after : DateTime) (m : Int) : Prop :=
  Lib.IsFirst (fun k => e.matches k = true) (after.instant / Cron.minute + 1) (lastInstant / Cron.minute) m

/-- **`next_run` returns a time whenever a later minute matches just if the first such minute is at most 1460 days
away, and 1460 days later there are still datetimes.** -/
theorem keepsFiring_iff (e : ParsedExpression) (after : DateTime) : e.KeepsFiring after ↔
    ∀ m, e.IsNextMatch after m → m * Cron.minute ≤ after.instant + horizon ∧ after.instant + horizon ≤ lastInstant := by
  have hlater (m : Int) : after.instant < m * Cron.minute ↔ after.instant / Cron.minute + 1 ≤ m := by
    unfold Cron.minute second
    omega
  have hlast (m : Int) : m * Cron.minute ≤ lastInstant ↔ m ≤ lastInstant / Cron.minute := by
    unfold lastInstant Cron.minute second
    omega
  have hsome : (∃ m, after.instant < m * Cron.minute ∧ m * Cron.minute ≤ lastInstant ∧ e.matches m = true) ↔
      ∃ m, e.IsNextMatch after m := by
    simp only [hlater, hlast]
    exact Lib.exists_isFirst_iff.symm
  unfold KeepsFiring
  rw [hsome, nextRunOrRaise_isOk_iff]
  constructor
  · intro h m hm
    obtain ⟨hlimit, k, hits⟩ := h ⟨m, hm⟩
    obtain ⟨-, hleast⟩ := Lib.isFirst_iff.mp hm
    have hle := hleast k ((hlater k).mp hits.later) ((hlast k).mp hits.le_last) hits.is_match
    have hwithin := hits.within
    refine ⟨?_, hlimit⟩
    unfold Cron.minute second at *
    omega
  · rintro h ⟨m, hm⟩
    obtain ⟨hwithin, hlimit⟩ := h m hm
    exact ⟨hlimit, m, (hlater m).mpr hm.start_le, hwithin, (hlast m).mpr hm.le_limit, hm.is_hit⟩

/-- The scheduler leaves a job without a next run just when `next_run` raises. -/
theorem nextRun_updateNextRun_eq_none_iff (e : ParsedExpression) {job : ScheduledJob}
    (hjob : job.trigger.cronExpr = some e.toCronExpression) {now : DateTime} (hlimit : now.instant + horizon ≤ lastInstant) :
    (job.updateNextRun now.instant).nextRun = none ↔ ∃ err, e.nextRunOrRaise now = .error err := by
  have hnext : (job.updateNextRun now.instant).nextRun = (e.nextRunOrRaise now).toOption.map (·.instant) := by
    unfold ScheduledJob.updateNextRun
    rw [hjob, nextRunOrRaise_eq, if_pos hlimit]
  rw [hnext]
  cases e.nextRunOrRaise now <;> simp [Except.toOption]

def leapMidnight : DateTime := ⟨1709164800 * second, by decide, by decide⟩

/-- `0 0 29 2 *`. -/
def leapDay : ParsedExpression where
  minute := [0]
  hour := [0]
  dayOfMonth := [29]
  month := [2]
  dayOfWeek := List.range 7
  raw := "0 0 29 2 *"
  minute_lt := by decide
  hour_lt := by decide
  dayOfMonth_mem := by decide
  month_mem := by decide
  dayOfWeek_lt := weekday_lt

/-- After its run on 29 February 2024, it is left without the one in 2028. -/
theorem leap_day_left_without_run : ¬ ∀ (u : DecimalDigits) (text : String) (e : ParsedExpression),
    ParsedExpression.fromString u text = .ok e → ∀ after, e.KeepsFiring after := by
  intro h
  have hparsed : ParsedExpression.fromString asciiDigits "0 0 29 2 *" = .ok leapDay := rfl
  obtain ⟨t, ht⟩ := h asciiDigits _ _ hparsed leapMidnight
    ⟨30589920, by decide +kernel, by decide +kernel, by decide +kernel⟩
  obtain ⟨-, m, hits⟩ := (nextRunOrRaise_isOk_iff _ _).mp ⟨t, ht⟩
  have hday := same_day_of_hits (by decide +kernel) (by decide +kernel) hits
  obtain ⟨hminute, hhour, -, -⟩ := matches_iff.mp hits.is_match
  have hlater := hits.later
  have hzero := List.mem_singleton.mp hminute
  have hzero' := List.mem_singleton.mp hhour
  unfold minuteOf at hzero
  unfold leapMidnight Cron.minute second at *
  omega

end CronExpression

end Occp.Cron
