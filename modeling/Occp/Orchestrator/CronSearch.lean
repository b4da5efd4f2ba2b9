import Mathlib.Tactic.Ring
import Occp.Errors
import Occp.Lib.Except
import Occp.Lib.Search
import Occp.Orchestrator.CronFiring

/-!
# The search for the next run (`CronExpression.next_run`)

A `datetime` lies between the years 1 and 9999, and arithmetic that leaves them raises. Times are wall
times, of whatever zone.
-/

namespace Occp.Cron

/-! ## Datetimes -/

def firstInstant : Int := -62135596800 * second

def lastInstant : Int := 253402300800 * second - 1

/-- A `datetime`, by its microseconds since the epoch. -/
structure DateTime where
  instant : Int
  first_le : firstInstant ≤ instant
  le_last : instant ≤ lastInstant

namespace DateTime

def minute (t : DateTime) : Nat := minuteOf (t.instant / Cron.minute)

def ofInstant (instant : Int) : Except PyError DateTime :=
  if h : firstInstant ≤ instant ∧ instant ≤ lastInstant then .ok ⟨instant, h.1, h.2⟩
  else .error (.other "OverflowError" "date value out of range")

/-- `dt.replace(second=0, microsecond=0)`. -/
def wholeMinute (t : DateTime) : DateTime where
  instant := t.instant / Cron.minute * Cron.minute
  first_le := by
    have hfirst := t.first_le
    unfold firstInstant Cron.minute second at *
    omega
  le_last := by
    have hlast := t.le_last
    unfold lastInstant Cron.minute second at *
    omega

theorem ofInstant_of_mem {instant : Int} (h : firstInstant ≤ instant ∧ instant ≤ lastInstant) :
    ofInstant instant = .ok ⟨instant, h.1, h.2⟩ := dif_pos h

def add (t : DateTime) (delta : Int) : Except PyError DateTime := ofInstant (t.instant + delta)

/-- `dt.replace(minute=minute, second=0, microsecond=0)`. -/
def replaceMinute (t : DateTime) (minute : Nat) : Except PyError DateTime :=
  if minute < 60 then ofInstant ((t.instant / Cron.minute - t.minute + minute) * Cron.minute)
  else .error (.valueError "minute must be in 0..59")

end DateTime

/-! ## The search -/

/-- An expression that holds what its attributes are documented to hold. -/
structure ParsedExpression extends CronExpression where
  minute_lt : ∀ m ∈ minute, m < 60
  hour_lt : ∀ h ∈ hour, h < 24
  dayOfMonth_mem : ∀ d ∈ dayOfMonth, 1 ≤ d ∧ d ≤ 31
  month_mem : ∀ m ∈ month, 1 ≤ m ∧ m ≤ 12
  dayOfWeek_lt : ∀ d ∈ dayOfWeek, d < 7

namespace CronExpression

def noMatch (e : CronExpression) : PyError :=
  .other "CronError" s!"No matching time found for expression '{e.raw}' within 4 years"

/-- The loop of `next_run`. -/
def searchFrom (e : CronExpression) (limit : DateTime) : (fuel : Nat) → (candidate : DateTime) → Except PyError DateTime
  | 0, _ => .error e.noMatch
  | fuel + 1, candidate =>
    if candidate.instant ≤ limit.instant then
      if e.matches (candidate.instant / Cron.minute) then .ok candidate
      else if !e.minute.contains candidate.minute then
        match (e.minute.filter (candidate.minute < ·)).min? with
        | some next => candidate.replaceMinute next >>= searchFrom e limit fuel
        | none => (candidate.replaceMinute 0 >>= (·.add (60 * Cron.minute))) >>= searchFrom e limit fuel
      else candidate.add Cron.minute >>= searchFrom e limit fuel
    else .error e.noMatch

/-- 365 days, four times. -/
def horizon : Int := 365 * 4 * 1440 * Cron.minute

/-- `next_run`, with what it raises. The fuel is that of `nextRun`. -/
def nextRunOrRaise (e : CronExpression) (after : DateTime) : Except PyError DateTime := do
  let candidate ← after.wholeMinute.add Cron.minute
  let limit ← after.add horizon
  e.searchFrom limit (365 * 4 * 1440 + 1) candidate

/-! ## Where the search goes on -/

/-- The minute at which the search goes on after one that does not match. -/
def goOn (e : CronExpression) (m : Int) : Int :=
  if !e.minute.contains (minuteOf m) then
    match (e.minute.filter (minuteOf m < ·)).min? with
    | some next => m - minuteOf m + next
    | none => m - minuteOf m + 60
  else m + 1

theorem minuteOf_eq (m : Int) : (minuteOf m : Int) = m % 60 := by
  unfold minuteOf
  omega

/-- No minute up to the next one that is listed matches, as far as the hour goes. -/
theorem not_matches {e : CronExpression} {m : Int} (h : minuteOf m ∉ e.minute) : e.matches m = false := by
  unfold CronExpression.matches
  simp [h]

theorem skips_goOn (e : ParsedExpression) : Lib.Skips e.matches e.goOn where
  lt_next m _ := by
    have hminute := minuteOf_eq m
    unfold goOn
    split
    · split
      · next next hnext =>
        have hlater := (List.mem_filter.mp (List.min?_mem hnext)).2
        rw [decide_eq_true_eq] at hlater
        omega
      · omega
    · omega
  miss m k _ hlt hskipped := by
    have hminute := minuteOf_eq m
    have hk := minuteOf_eq k
    apply not_matches
    intro hmem
    unfold goOn at hskipped
    split at hskipped
    · split at hskipped
      · next next hnext =>
        have hnextlt := e.minute_lt next (List.mem_filter.mp (List.min?_mem hnext)).1
        have hlater : minuteOf m < minuteOf k := by omega
        have hle := (List.min?_eq_some_iff.mp hnext).2 (minuteOf k) (List.mem_filter.mpr ⟨hmem, by simpa using hlater⟩)
        omega
      · next hnone =>
        have hlater : minuteOf m < minuteOf k := by omega
        rw [List.min?_eq_none_iff, List.filter_eq_nil_iff] at hnone
        exact hnone (minuteOf k) hmem (by simpa using hlater)
    · omega

theorem nextRunFrom_eq (e : CronExpression) (limit : Int) (fuel : Nat) (m : Int) :
    e.nextRunFrom limit fuel m =
      (Lib.search e.matches e.goOn (limit / Cron.minute) fuel m).map (· * Cron.minute) := by
  induction fuel generalizing m with
  | zero => rfl
  | succ fuel ih =>
    have hlimit : m * Cron.minute ≤ limit ↔ m ≤ limit / Cron.minute := by
      unfold Cron.minute second
      omega
    rw [nextRunFrom, Lib.search]
    simp only [hlimit, goOn]
    split
    · split
      · rfl
      · split
        · cases (e.minute.filter (minuteOf m < ·)).min? with
          | some next => exact ih _
          | none => exact ih _
        · exact ih _
    · rfl

theorem nextRunFrom_of_lt {e : CronExpression} {limit m : Int} (h : limit < m * Cron.minute) (fuel : Nat) :
    e.nextRunFrom limit fuel m = none := by
  cases fuel with
  | zero => rfl
  | succ fuel => rw [nextRunFrom, if_neg (by omega)]

/-! ## The range of datetimes -/

theorem ediv_minute (m : Int) : m * Cron.minute / Cron.minute = m := Int.mul_ediv_cancel m (by decide)

theorem searchFrom_later {e : CronExpression} {limit : DateTime} {fuel : Nat}
    (ih : ∀ (candidate : DateTime) (m : Int), candidate.instant = m * Cron.minute →
      (e.searchFrom limit fuel candidate).toOption.map (·.instant) = e.nextRunFrom limit.instant fuel m)
    {later : Int} (hfirst : firstInstant ≤ later * Cron.minute) :
    (DateTime.ofInstant (later * Cron.minute) >>= e.searchFrom limit fuel).toOption.map (·.instant) =
      e.nextRunFrom limit.instant fuel later := by
  unfold DateTime.ofInstant
  split
  · exact ih _ later rfl
  · next hout =>
    have hlast := limit.le_last
    rw [nextRunFrom_of_lt (by omega)]
    rfl

/-- Arithmetic that leaves the range of datetimes is past the limit. -/
theorem searchFrom_eq (e : ParsedExpression) (limit : DateTime) (fuel : Nat) (candidate : DateTime) {m : Int}
    (hm : candidate.instant = m * Cron.minute) :
    (e.searchFrom limit fuel candidate).toOption.map (·.instant) = e.nextRunFrom limit.instant fuel m := by
  induction fuel generalizing candidate m with
  | zero => rfl
  | succ fuel ih =>
    have hminute := minuteOf_eq m
    have hfirst := candidate.first_le
    have hlast := candidate.le_last
    have hlater (k : Int) (hk : m - minuteOf m ≤ k) : firstInstant ≤ k * Cron.minute := by
      unfold firstInstant Cron.minute second at *
      omega
    rw [searchFrom, nextRunFrom]
    unfold DateTime.replaceMinute DateTime.minute DateTime.add
    rw [hm, ediv_minute]
    split
    · split
      · exact congrArg some hm
      · split
        · cases hnext : (e.minute.filter (minuteOf m < ·)).min? with
          | some next =>
            have hlt := e.minute_lt next (List.mem_filter.mp (List.min?_mem hnext)).1
            have hnextFirst := hlater (m - minuteOf m + next) (by omega)
            dsimp only
            rw [if_pos hlt]
            exact searchFrom_later ih hnextFirst
          | none =>
            have hhour : (m - minuteOf m) * Cron.minute ≤ lastInstant := by
              unfold Cron.minute second at *
              omega
            have hadd : (m - minuteOf m) * Cron.minute + 60 * Cron.minute = (m - minuteOf m + 60) * Cron.minute := by ring
            have hnextFirst := hlater (m - minuteOf m + 60) (by omega)
            dsimp only
            rw [if_pos (by decide), Nat.cast_zero, add_zero, DateTime.ofInstant_of_mem ⟨hlater _ le_rfl, hhour⟩,
              Lib.Except.ok_bind, hadd]
            exact searchFrom_later ih hnextFirst
        · have hadd : m * Cron.minute + Cron.minute = (m + 1) * Cron.minute := by ring
          have hnextFirst := hlater (m + 1) (by omega)
          rw [hadd]
          exact searchFrom_later ih hnextFirst
    · rfl

/-- Within the range of datetimes, the search is that of `nextRun`. -/
theorem nextRunOrRaise_eq (e : ParsedExpression) (after : DateTime) :
    (e.nextRunOrRaise after).toOption.map (·.instant) =
      if after.instant + horizon ≤ lastInstant then e.nextRun after.instant else none := by
  have hfirst := after.first_le
  have hstart : after.wholeMinute.instant + Cron.minute = (after.instant / Cron.minute + 1) * Cron.minute := by
    change after.instant / Cron.minute * Cron.minute + Cron.minute = _
    ring
  unfold nextRunOrRaise
  by_cases hlimit : after.instant + horizon ≤ lastInstant
  · have hcandidate : firstInstant ≤ after.wholeMinute.instant + Cron.minute ∧
        after.wholeMinute.instant + Cron.minute ≤ lastInstant := by
      unfold horizon at hlimit
      rw [hstart]
      unfold firstInstant lastInstant Cron.minute second at *
      omega
    have hin : firstInstant ≤ after.instant + horizon ∧ after.instant + horizon ≤ lastInstant := by
      refine ⟨?_, hlimit⟩
      unfold horizon Cron.minute second
      omega
    rw [if_pos hlimit, DateTime.add, DateTime.ofInstant_of_mem hcandidate, Lib.Except.ok_bind, DateTime.add,
      DateTime.ofInstant_of_mem hin, Lib.Except.ok_bind]
    exact searchFrom_eq e _ _ _ hstart
  · have hraises : after.add horizon = .error (.other "OverflowError" "date value out of range") :=
      dif_neg fun hin => hlimit hin.2
    rw [if_neg hlimit, hraises]
    cases after.wholeMinute.add Cron.minute <;> rfl

/-! ## Minute by minute -/

/-- The whole minute is later than the start, within four years, still a datetime, and matches. -/
structure Hits (e : CronExpression) (after : DateTime) (m : Int) : Prop where
  later : after.instant < m * Cron.minute
  within : m * Cron.minute ≤ after.instant + horizon
  le_last : m * Cron.minute ≤ lastInstant
  is_match : e.matches m = true

/-- `next_run` returns the least hit, and raises just when there is none. -/
structure Agrees (e : CronExpression) (after : DateTime) : Prop where
  least : ∀ t, e.nextRunOrRaise after = .ok t →
    ∃ m, t.instant = m * Cron.minute ∧ e.Hits after m ∧ ∀ k, e.Hits after k → m ≤ k
  raises : (∃ err, e.nextRunOrRaise after = .error err) ↔ ¬ ∃ m, e.Hits after m

theorem hits_iff {e : CronExpression} {after : DateTime} (h : after.instant + horizon ≤ lastInstant) (m : Int) :
    e.Hits after m ↔
      after.instant / Cron.minute + 1 ≤ m ∧ m ≤ (after.instant + horizon) / Cron.minute ∧ e.matches m = true := by
  have hlater : after.instant < m * Cron.minute ↔ after.instant / Cron.minute + 1 ≤ m := by
    unfold Cron.minute second
    omega
  have hwithin : m * Cron.minute ≤ after.instant + horizon ↔ m ≤ (after.instant + horizon) / Cron.minute := by
    generalize after.instant + horizon = limit
    unfold Cron.minute second
    omega
  rw [← hlater, ← hwithin]
  exact ⟨fun hits => ⟨hits.later, hits.within, hits.is_match⟩,
    fun ⟨h1, h2, h3⟩ => ⟨h1, h2, h2.trans h, h3⟩⟩

theorem nextRun_eq_some_iff (e : ParsedExpression) (after n : Int) : e.nextRun after = some n ↔
    ∃ m, m * Cron.minute = n ∧
      Lib.IsFirst (fun k => e.matches k = true) (after / Cron.minute + 1) ((after + horizon) / Cron.minute) m := by
  have hfuel : (after + horizon) / Cron.minute < after / Cron.minute + 1 + (365 * 4 * 1440 + 1 : Nat) := by
    unfold horizon Cron.minute second
    omega
  change e.nextRunFrom (after + horizon) (365 * 4 * 1440 + 1) (after / Cron.minute + 1) = some n ↔ _
  rw [nextRunFrom_eq, Option.map_eq_some_iff]
  refine exists_congr fun m => ?_
  rw [Lib.search_eq_some_iff (skips_goOn e) hfuel, and_comm]

theorem nextRunOrRaise_eq_ok_iff (e : ParsedExpression) (after t : DateTime) : e.nextRunOrRaise after = .ok t ↔
    after.instant + horizon ≤ lastInstant ∧
      ∃ m, t.instant = m * Cron.minute ∧ e.Hits after m ∧ ∀ k, e.Hits after k → m ≤ k := by
  have hok : e.nextRunOrRaise after = .ok t ↔ (e.nextRunOrRaise after).toOption.map (·.instant) = some t.instant := by
    obtain ⟨instant, -, -⟩ := t
    cases e.nextRunOrRaise after with
    | error err => simp [Except.toOption]
    | ok found =>
      obtain ⟨found, -, -⟩ := found
      simp [Except.toOption]
  rw [hok, nextRunOrRaise_eq]
  by_cases hlimit : after.instant + horizon ≤ lastInstant
  · rw [if_pos hlimit, nextRun_eq_some_iff, and_iff_right hlimit]
    refine exists_congr fun m => ?_
    rw [Lib.isFirst_iff, hits_iff hlimit m, eq_comm]
    simp only [hits_iff hlimit, and_imp]
  · rw [if_neg hlimit]
    exact iff_of_false nofun fun h => hlimit h.1

theorem exists_least_hit {e : CronExpression} {after : DateTime} (h : ∃ m, e.Hits after m) :
    ∃ m, e.Hits after m ∧ ∀ k, e.Hits after k → m ≤ k := by
  refine Int.exists_least_of_bdd ⟨after.instant / Cron.minute, fun m hits => ?_⟩ h
  have hlater := hits.later
  unfold Cron.minute second at *
  omega

/-- It returns something just when there is a hit, and the limit of the search is a datetime. -/
theorem nextRunOrRaise_isOk_iff (e : ParsedExpression) (after : DateTime) :
    (∃ t, e.nextRunOrRaise after = .ok t) ↔ after.instant + horizon ≤ lastInstant ∧ ∃ m, e.Hits after m := by
  constructor
  · rintro ⟨t, ht⟩
    obtain ⟨hlimit, m, -, hits, -⟩ := (nextRunOrRaise_eq_ok_iff e after t).mp ht
    exact ⟨hlimit, m, hits⟩
  · rintro ⟨hlimit, hsome⟩
    obtain ⟨m, hits, hleast⟩ := exists_least_hit hsome
    have hfirst := after.first_le
    have hlater := hits.later
    exact ⟨⟨m * Cron.minute, by omega, hits.le_last⟩,
      (nextRunOrRaise_eq_ok_iff e after _).mpr ⟨hlimit, m, rfl, hits, hleast⟩⟩

/-- **`next_run` agrees with a search minute by minute just when the limit of its own search is a datetime, or
nothing matches.** -/
theorem agrees_iff (e : ParsedExpression) (after : DateTime) :
    e.Agrees after ↔ after.instant + horizon ≤ lastInstant ∨ ¬ ∃ m, e.Hits after m := by
  have hraises : (∃ err, e.nextRunOrRaise after = .error err) ↔ ¬ ∃ t, e.nextRunOrRaise after = .ok t := by
    cases e.nextRunOrRaise after <;> simp
  constructor
  · intro h
    by_contra hnot
    rw [not_or, not_not] at hnot
    refine h.raises.mp (hraises.mpr ?_) hnot.2
    rw [nextRunOrRaise_isOk_iff]
    exact fun hok => hnot.1 hok.1
  · intro h
    refine ⟨fun t ht => ((nextRunOrRaise_eq_ok_iff e after t).mp ht).2, ?_⟩
    rw [hraises, nextRunOrRaise_isOk_iff]
    refine not_congr (and_iff_right_of_imp fun hsome => ?_)
    exact h.resolve_right (not_not.mpr hsome)

theorem weekday_lt : ∀ d ∈ List.range 7, d < 7 := fun _ => List.mem_range.mp

def everyMinute : ParsedExpression where
  minute := List.range 60
  hour := List.range 24
  dayOfMonth := List.range' 1 31
  month := List.range' 1 12
  dayOfWeek := List.range 7
  raw := "* * * * *"
  minute_lt _ := List.mem_range.mp
  hour_lt _ := List.mem_range.mp
  dayOfMonth_mem d hd := by rw [List.mem_range'_1] at hd; omega
  month_mem m hm := by rw [List.mem_range'_1] at hm; omega
  dayOfWeek_lt := weekday_lt

def lastNoon : DateTime := ⟨253402257600 * second, by decide, by decide⟩

/-- The next minute matches, but four years later there are no datetimes. -/
theorem last_noon_raises : ¬ ∀ (e : ParsedExpression) (after : DateTime), e.Agrees after := by
  intro h
  refine (h everyMinute lastNoon).raises.mp ⟨_, rfl⟩ ?_
  exact ⟨4223370961, by decide +kernel, by decide +kernel, by decide +kernel, by decide +kernel⟩

end CronExpression

end Occp.Cron
