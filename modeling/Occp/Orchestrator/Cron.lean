import Occp.Value

/-!
# Scheduled jobs (`orchestrator/cron_scheduler.py`)

Times are microseconds since the epoch, in UTC. A call of `check_and_fire` runs from one await to
the next: it waits only for the task that it has dispatched for a job.
-/

namespace Occp.Cron

/-! ## Calendar -/

/-- Microseconds in a second. -/
def second : Int := 1000000

/-- Microseconds in a minute. -/
def minute : Int := 60 * second

/-- The month and the day of a day, by its number since the epoch. Years start in March here, and
eras of 400 years have equal lengths. -/
def monthAndDay (days : Int) : Nat × Nat :=
  let dayOfEra := ((days + 719468) % 146097).toNat
  let yearOfEra := (dayOfEra - dayOfEra / 1460 + dayOfEra / 36524 - dayOfEra / 146096) / 365
  let dayOfYear := dayOfEra - (365 * yearOfEra + yearOfEra / 4 - yearOfEra / 100)
  let month := (5 * dayOfYear + 2) / 153
  (if month < 10 then month + 3 else month - 9, dayOfYear - (153 * month + 2) / 5 + 1)

/-- The epoch, the last day of a leap February, and New Year. -/
example : monthAndDay 0 = (1, 1) ∧ monthAndDay 11016 = (2, 29) ∧ monthAndDay 19358 = (1, 1) := by decide

/-! ## Cron expressions -/

structure CronExpression where
  minute : List Nat
  hour : List Nat
  dayOfMonth : List Nat
  month : List Nat
  dayOfWeek : List Nat
  raw : String := ""

def minuteOf (m : Int) : Nat := (m % 60).toNat

/-- `matches`, for a whole minute. Sunday is day 0 of the week, and the epoch was a Thursday. -/
def CronExpression.matches (e : CronExpression) (m : Int) : Bool :=
  let days := m / 1440
  let (month, day) := monthAndDay days
  e.minute.contains (minuteOf m) && e.hour.contains (m / 60 % 24).toNat && e.dayOfMonth.contains day &&
    e.month.contains month && e.dayOfWeek.contains ((days + 4) % 7).toNat

namespace CronExpression

/-- The loop of `next_run`, from a whole minute. -/
def nextRunFrom (e : CronExpression) (limit : Int) : (fuel : Nat) → (candidate : Int) → Option Int
  | 0, _ => none
  | fuel + 1, candidate =>
    if candidate * Cron.minute ≤ limit then
      if e.matches candidate then some (candidate * Cron.minute)
      else if !e.minute.contains (minuteOf candidate) then
        match (e.minute.filter (minuteOf candidate < ·)).min? with
        | some next => nextRunFrom e limit fuel (candidate - minuteOf candidate + next)
        | none => nextRunFrom e limit fuel (candidate - minuteOf candidate + 60)
      else nextRunFrom e limit fuel (candidate + 1)
    else none

/-- `next_run`; there is none when it raises `CronError`. Each step goes on by a minute at least, so that the fuel
lasts for the four years. -/
def nextRun (e : CronExpression) (after : Int) : Option Int :=
  e.nextRunFrom (after + 365 * 4 * 1440 * Cron.minute) (365 * 4 * 1440 + 1) (after / Cron.minute + 1)

/-- Noon of a New Year's Day that is a Sunday. -/
example : (nextRun { minute := [0], hour := [12], dayOfMonth := [1], month := [1], dayOfWeek := [0] }
    (1672531201 * second)) = some (1672574400 * second) := by
  decide +kernel

end CronExpression

/-! ## Jobs -/

inductive TriggerType where
  | cron
  | webhook
  | event
  | interval
  deriving DecidableEq

structure TriggerConfig where
  triggerType : TriggerType
  cronExpr : Option CronExpression := none
  intervalSeconds : Option Int := none

structure ScheduledJob where
  trigger : TriggerConfig
  enabled : Bool := true
  nextRun : Option Int := none
  runCount : Nat := 0
  errorCount : Nat := 0

namespace ScheduledJob

def due? (job : ScheduledJob) (now : Int) : Option Int :=
  if job.enabled ∧ (job.trigger.triggerType = .cron ∨ job.trigger.triggerType = .interval) then
    job.nextRun.filter (· ≤ now)
  else none

/-- What `check_and_fire` does to the job after it has fired. -/
def updateNextRun (job : ScheduledJob) (now : Int) : ScheduledJob :=
  match job.trigger.cronExpr with
  | some e => { job with nextRun := e.nextRun now }
  | none =>
    match job.trigger.triggerType, job.trigger.intervalSeconds with
    | .interval, some n => if n = 0 then job else { job with nextRun := some (now + n * second) }
    | _, _ => job

/-- What `_fire_job` counts when the dispatch has returned or raised. -/
def countOutcome (job : ScheduledJob) (error : Option String) : ScheduledJob :=
  match error with
  | none => { job with runCount := job.runCount + 1 }
  | some _ => { job with errorCount := job.errorCount + 1 }

end ScheduledJob

/-! ## The scheduler -/

structure JobExecution where
  jobId : String
  error : Option String

/-- A call of `check_and_fire`: what is left of its list of jobs, and the job whose task it waits for. -/
structure Scan where
  now : Int
  rest : List String
  firing : Option String := none
  executions : List JobExecution := []

/-- A note of a firing: for which due time, and whether the job was then registered and enabled. -/
structure Firing where
  jobId : String
  due : Int
  wanted : Bool

/-- `objects` are the jobs, also removed ones that a scan still has on its list. -/
structure CronScheduler where
  objects : Dict ScheduledJob
  registered : List String
  scans : List Scan := []
  log : List Firing := []

inductive CronEvent where
  | checkAndFire (now : Int)
  /-- The dispatch that a scan waits for returns, or raises. -/
  | proceed (scan : Nat) (error : Option String)
  | pauseJob (jobId : String)
  | removeJob (jobId : String)

namespace CronScheduler

def start (jobs : Dict ScheduledJob) : CronScheduler := { objects := jobs, registered := jobs.keys }

def turn (s : CronScheduler) (now : Int) : List String → Option (String × Int × List String)
  | [] => none
  | id :: rest =>
    match (s.objects.get? id).bind (·.due? now) with
    | some due => some (id, due, rest)
    | none => s.turn now rest

/-- The start of `_fire_job`, up to the dispatch. -/
def fire (s : CronScheduler) (i : Nat) (scan : Scan) (id : String) (due : Int) (rest : List String) : CronScheduler :=
  let wanted := s.registered.contains id && (s.objects.get? id).any (·.enabled)
  { s with
    scans := s.scans.set i { scan with rest, firing := some id }
    log := s.log ++ [{ jobId := id, due, wanted }] }

/-- The loop of a scan, up to its next await or its end. -/
def goOn (s : CronScheduler) (i : Nat) : CronScheduler :=
  match s.scans[i]? with
  | none => s
  | some scan =>
    match s.turn scan.now scan.rest with
    | none => { s with scans := s.scans.set i { scan with rest := [] } }
    | some (id, due, rest) => s.fire i scan id due rest

/-- The end of `_fire_job`, and the update of `next_run`. -/
def finish (s : CronScheduler) (i : Nat) (scan : Scan) (id : String) (error : Option String) : CronScheduler :=
  { s with
    objects := match s.objects.get? id with
      | some job => s.objects.set id ((job.countOutcome error).updateNextRun scan.now)
      | none => s.objects
    scans := s.scans.set i { scan with firing := none, executions := scan.executions ++ [⟨id, error⟩] } }

/-- The state in which a scan goes on with its loop, and which one does. -/
def arrive (s : CronScheduler) : CronEvent → CronScheduler × Option Nat
  | .checkAndFire now => ({ s with scans := s.scans ++ [{ now, rest := s.registered }] }, some s.scans.length)
  | .proceed i error =>
    match s.scans[i]? with
    | none => (s, none)
    | some scan =>
      match scan.firing with
      | none => (s, none)
      | some id => (s.finish i scan id error, some i)
  | .pauseJob id =>
    match s.registered.contains id, s.objects.get? id with
    | true, some job => ({ s with objects := s.objects.set id { job with enabled := false } }, none)
    | _, _ => (s, none)
  | .removeJob id => ({ s with registered := s.registered.filter (· ≠ id) }, none)

def step (s : CronScheduler) (e : CronEvent) : CronScheduler :=
  match s.arrive e with
  | (s, some i) => s.goOn i
  | (s, none) => s

end CronScheduler

end Occp.Cron
