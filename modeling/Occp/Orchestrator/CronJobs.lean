import Occp.Errors
import Occp.Orchestrator.CronSearch

/-!
# Jobs as dictionaries (`ScheduledJob.to_dict`, `ScheduledJob.from_dict`)

Calls are for one job, and each ends before the next one. The scheduler counts a job's runs but never reads the
counts.
-/

namespace Occp.Cron

/-! ## The records -/

/-- A `TriggerConfig`; what it extends is its schedule. -/
structure TriggerRecord extends TriggerConfig where
  triggerId : Value
  name : Value
  eventFilter : Value := .none
  enabled : Bool := true
  metadata : Value := .dict []

/-- A `ScheduledJob`, whose types are not checked. -/
structure JobRecord where
  jobId : Value
  name : Value
  trigger : TriggerRecord
  taskTemplate : Value
  agentType : Value
  enabled : Value := .bool true
  createdAt : Int
  lastRun : Option Int := none
  nextRun : Option Int := none
  runCount : Value := .int 0
  errorCount : Value := .int 0
  maxRetries : Value := .int 0

/-- What the scheduler reads of a job. -/
def JobRecord.scheduled (job : JobRecord) : ScheduledJob where
  trigger := job.trigger.toTriggerConfig
  enabled := job.enabled.truthy
  nextRun := job.nextRun

namespace TriggerType

def value : TriggerType → String
  | cron => "cron"
  | webhook => "webhook"
  | event => "event"
  | interval => "interval"

def ofString? : String → Option TriggerType
  | "cron" => some cron
  | "webhook" => some webhook
  | "event" => some event
  | "interval" => some interval
  | _ => none

theorem ofString?_value (t : TriggerType) : ofString? t.value = some t := by
  cases t <;> rfl

/-- `TriggerType(value)`; `repr` is Python's. -/
def ofValue (repr : Value → String) (v : Value) : Except PyError TriggerType :=
  let invalid : PyError :=
    let shown := repr v
    .valueError s!"{shown} is not a valid TriggerType"
  match v with
  | .str s =>
    match ofString? s with
    | some t => .ok t
    | none => .error invalid
  | _ => .error invalid

/-- The scheduler looks for due jobs of these types only. -/
def Timed (t : TriggerType) : Prop := t = .cron ∨ t = .interval

instance (t : TriggerType) : Decidable t.Timed := inferInstanceAs (Decidable (_ ∨ _))

end TriggerType

/-! ## Dictionaries -/

section

variable (isoformat : Int → String) (repr : Value → String)

def timeOrNone : Option Int → Value
  | some t => .str (isoformat t)
  | none => .none

def JobRecord.toDict (job : JobRecord) : Dict Value :=
  [("job_id", job.jobId),
   ("name", job.name),
   ("trigger_id", job.trigger.triggerId),
   ("trigger_type", .str job.trigger.triggerType.value),
   ("agent_type", job.agentType),
   ("enabled", job.enabled),
   ("created_at", .str (isoformat job.createdAt)),
   ("last_run", timeOrNone isoformat job.lastRun),
   ("next_run", timeOrNone isoformat job.nextRun),
   ("run_count", job.runCount),
   ("error_count", job.errorCount),
   ("max_retries", job.maxRetries),
   ("task_template", job.taskTemplate)]

/-- `data[key]`. -/
def require (data : Dict Value) (key : String) : Except PyError Value :=
  match data.get? key with
  | some v => .ok v
  | none => .error (.other "KeyError" (reprString key))

/-- `from_dict`, at this time. -/
def JobRecord.fromDict (now : Int) (data : Dict Value) : Except PyError JobRecord := do
  let triggerType ← TriggerType.ofValue repr ((data.get? "trigger_type").getD (.str TriggerType.cron.value))
  let trigger : TriggerRecord :=
    { triggerType
      triggerId := (data.get? "trigger_id").getD ((data.get? "job_id").getD (.str "unknown"))
      name := (data.get? "name").getD (.str "") }
  let jobId ← require data "job_id"
  let name ← require data "name"
  let agentType ← require data "agent_type"
  return {
    jobId
    name
    trigger
    taskTemplate := (data.get? "task_template").getD (.dict [])
    agentType
    enabled := (data.get? "enabled").getD (.bool true)
    createdAt := now
    runCount := (data.get? "run_count").getD (.int 0)
    errorCount := (data.get? "error_count").getD (.int 0)
    maxRetries := (data.get? "max_retries").getD (.int 0) }

def JobRecord.restored (job : JobRecord) (now : Int) : JobRecord :=
  { job with
    trigger :=
      { triggerType := job.trigger.triggerType
        triggerId := job.trigger.triggerId
        name := job.name }
    createdAt := now
    lastRun := none
    nextRun := none }

theorem JobRecord.fromDict_toDict (job : JobRecord) (now : Int) :
    fromDict repr now (job.toDict isoformat) = .ok (job.restored now) := by
  have htype : TriggerType.ofValue repr (.str job.trigger.triggerType.value) = .ok job.trigger.triggerType := by
    unfold TriggerType.ofValue
    dsimp only
    rw [TriggerType.ofString?_value]
  have hread : (((job.toDict isoformat).get? "trigger_type").getD (.str TriggerType.cron.value)) =
      .str job.trigger.triggerType.value := rfl
  unfold fromDict
  rw [hread, htype]
  rfl

end

/-! ## Fire times -/

inductive JobCall where
  | addJob (now : Int)
  | pauseJob
  | resumeJob (now : Int)
  | checkAndFire (now : Int)

namespace ScheduledJob

/-- When an interval ends that starts now. -/
def afterInterval (job : ScheduledJob) (now : Int) : Option Int :=
  match job.trigger.triggerType, job.trigger.intervalSeconds with
  | .interval, some n => if n = 0 then none else some (now + n * second)
  | _, _ => none

/-- What `add_job` does to the job. -/
def add (job : ScheduledJob) (now : Int) : ScheduledJob :=
  match job.nextRun with
  | some _ => job
  | none =>
    match job.trigger.cronExpr with
    | some e => { job with nextRun := e.nextRun now }
    | none => { job with nextRun := job.afterInterval now }

/-- What `resume_job` does to the job. A next run that cannot be computed stays what it was. -/
def resume (job : ScheduledJob) (now : Int) : ScheduledJob :=
  let next :=
    match job.trigger.cronExpr with
    | some e => e.nextRun now
    | none => job.afterInterval now
  { job with enabled := true, nextRun := next.or job.nextRun }

def after (job : ScheduledJob) : JobCall → ScheduledJob
  | .addJob now => job.add now
  | .pauseJob => { job with enabled := false }
  | .resumeJob now => job.resume now
  | .checkAndFire now =>
    match job.due? now with
    | some _ => job.updateNextRun now
    | none => job

def fires (job : ScheduledJob) : JobCall → Option Int
  | .checkAndFire now => (job.due? now).map fun _ => now
  | _ => none

def fireTimes : ScheduledJob → List JobCall → List Int
  | _, [] => []
  | job, call :: calls => (job.fires call).toList ++ (job.after call).fireTimes calls

/-- The job has nothing to compute a next run from, and none that it is fired for. -/
structure Idle (job : ScheduledJob) : Prop where
  no_expression : job.trigger.cronExpr = none
  no_interval : job.trigger.intervalSeconds = none
  not_due : job.nextRun = none ∨ ¬ job.trigger.triggerType.Timed

variable {job : ScheduledJob}

theorem afterInterval_eq_none (h : job.trigger.intervalSeconds = none) (now : Int) : job.afterInterval now = none := by
  unfold afterInterval
  rw [h]
  cases job.trigger.triggerType <;> rfl

theorem Idle.due?_eq_none (h : job.Idle) (now : Int) : job.due? now = none := by
  unfold due?
  split
  · next hon =>
    have hnone : job.nextRun = none := h.not_due.resolve_right (not_not.mpr hon.2)
    rw [hnone]
    rfl
  · rfl

theorem Idle.after (h : job.Idle) (call : JobCall) : (job.after call).Idle := by
  have hafter := afterInterval_eq_none h.no_interval
  cases call with
  | addJob now =>
    show (job.add now).Idle
    unfold add
    rw [h.no_expression]
    split
    · exact h
    · exact ⟨h.no_expression, h.no_interval, .inl (hafter now)⟩
  | pauseJob => exact ⟨h.no_expression, h.no_interval, h.not_due⟩
  | resumeJob now =>
    show (job.resume now).Idle
    unfold resume
    rw [h.no_expression, hafter now]
    exact ⟨h.no_expression, h.no_interval, h.not_due⟩
  | checkAndFire now =>
    unfold ScheduledJob.after
    dsimp only
    rw [h.due?_eq_none now]
    exact h

theorem Idle.fires_eq_none (h : job.Idle) (call : JobCall) : job.fires call = none := by
  cases call with
  | checkAndFire now =>
    show (job.due? now).map _ = none
    rw [h.due?_eq_none now]
    rfl
  | addJob now => rfl
  | pauseJob => rfl
  | resumeJob now => rfl

theorem Idle.fireTimes_eq_nil (h : job.Idle) (calls : List JobCall) : job.fireTimes calls = [] := by
  induction calls generalizing job with
  | nil => rfl
  | cons call calls ih =>
    unfold fireTimes
    rw [h.fires_eq_none call, ih (h.after call)]
    rfl

/-- A job that has only a next run to go by fires once that is due, if it is enabled again. -/
theorem fireTimes_resume (hcron : job.trigger.cronExpr = none) (hinterval : job.trigger.intervalSeconds = none)
    {t : Int} (hnext : job.nextRun = some t) (htimed : job.trigger.triggerType.Timed) :
    job.fireTimes [.resumeJob t, .checkAndFire t] = [t] := by
  have hresumed : job.after (.resumeJob t) = { job with enabled := true } := by
    show job.resume t = _
    unfold resume
    rw [hcron, afterInterval_eq_none hinterval]
    rfl
  have hdue : due? { job with enabled := true } t = some t := by
    unfold due?
    rw [if_pos ⟨rfl, htimed⟩, hnext]
    simp
  have hfires : fires { job with enabled := true } (.checkAndFire t) = some t := by
    show (due? { job with enabled := true } t).map _ = some t
    rw [hdue]
    rfl
  unfold fireTimes
  rw [hresumed]
  unfold fireTimes
  rw [hfires]
  rfl

end ScheduledJob

/-! ## The round trip -/

/-- The restored job has the same schedule and enabled state, and fires at the same times, whatever is called. -/
structure SameJob (job restored : JobRecord) : Prop where
  schedule : restored.trigger.toTriggerConfig = job.trigger.toTriggerConfig
  enabled : restored.enabled = job.enabled
  fires : ∀ calls, restored.scheduled.fireTimes calls = job.scheduled.fireTimes calls

def RoundTrips (isoformat : Int → String) (repr : Value → String) (now : Int) (job : JobRecord) : Prop :=
  ∃ restored, JobRecord.fromDict repr now (job.toDict isoformat) = .ok restored ∧ SameJob job restored

/-- Without an expression or an interval, nothing ever gives the restored job a next run. -/
theorem JobRecord.idle_restored (job : JobRecord) (now : Int) : (job.restored now).scheduled.Idle :=
  ⟨rfl, rfl, .inl rfl⟩

/-- **A job is the same after the round trip just when it has neither an expression nor an interval, and no next run
that it would be fired for.** -/
theorem roundTrips_iff (isoformat : Int → String) (repr : Value → String) (now : Int) (job : JobRecord) :
    RoundTrips isoformat repr now job ↔
      job.trigger.cronExpr = none ∧ job.trigger.intervalSeconds = none ∧
        (job.nextRun = none ∨ ¬ job.trigger.triggerType.Timed) := by
  have hnever := (job.idle_restored now).fireTimes_eq_nil
  unfold RoundTrips
  rw [JobRecord.fromDict_toDict]
  constructor
  · rintro ⟨restored, hrestored, hschedule, -, hfires⟩
    cases hrestored
    have hcron : job.trigger.cronExpr = none := (congrArg TriggerConfig.cronExpr hschedule).symm
    have hinterval : job.trigger.intervalSeconds = none := (congrArg TriggerConfig.intervalSeconds hschedule).symm
    refine ⟨hcron, hinterval, ?_⟩
    by_contra hnot
    rw [not_or, not_not] at hnot
    obtain ⟨t, hnext⟩ := Option.ne_none_iff_exists'.mp hnot.1
    have hsame := hfires [.resumeJob t, .checkAndFire t]
    have hfired : job.scheduled.fireTimes [.resumeJob t, .checkAndFire t] = [t] :=
      ScheduledJob.fireTimes_resume hcron hinterval hnext hnot.2
    rw [hnever, hfired] at hsame
    cases hsame
  · rintro ⟨hcron, hinterval, hdue⟩
    have hidle : job.scheduled.Idle := ⟨hcron, hinterval, hdue⟩
    refine ⟨_, rfl, ?_, rfl, fun calls => ?_⟩
    · show TriggerConfig.mk job.trigger.triggerType none none = _
      rw [← hcron, ← hinterval]
    · rw [hnever, hidle.fireTimes_eq_nil]

def minutely : JobRecord where
  jobId := .str "j"
  name := .str "j"
  trigger :=
    { triggerType := .cron
      cronExpr := some CronExpression.everyMinute.toCronExpression
      triggerId := .str "t"
      name := .str "t" }
  taskTemplate := .dict []
  agentType := .str "a"
  createdAt := 0
  nextRun := some minute

/-- It fires at its next run, and the restored one does not. -/
theorem minutely_never_fires_again : ¬ ∀ (isoformat : Int → String) (repr : Value → String) (now : Int) (job : JobRecord),
    RoundTrips isoformat repr now job := by
  intro h
  obtain ⟨restored, hrestored, hsame⟩ := h (fun _ => "") (fun _ => "") 0 minutely
  cases hrestored
  have hfires := hsame.fires [.checkAndFire minute]
  revert hfires
  decide +kernel

end Occp.Cron
