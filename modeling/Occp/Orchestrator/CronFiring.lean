import Mathlib.Tactic.Linarith
import Occp.Lib.Runs
import Occp.Orchestrator.Cron

/-!
# One firing for each due time

A scan moves a job's next run on when the task that it dispatched is done. Until then another
scan finds the job due for the same time, and a scan still has jobs that are no longer registered.
-/

namespace Occp.Cron

/-! ## The next run -/

theorem CronExpression.lt_of_nextRunFrom {e : CronExpression} {limit n : Int} {fuel : Nat} {candidate : Int}
    (h : e.nextRunFrom limit fuel candidate = some n) : candidate * Cron.minute ≤ n := by
  induction fuel generalizing candidate with
  | zero => cases h
  | succ fuel ih =>
    have hmin : (0 : Int) < Cron.minute := by decide
    have hlater {later : Int} (hle : candidate ≤ later) (h : e.nextRunFrom limit fuel later = some n) :
        candidate * Cron.minute ≤ n :=
      (Int.mul_le_mul_of_nonneg_right hle hmin.le).trans (ih h)
    unfold nextRunFrom at h
    split at h
    · split at h
      · cases h
        exact le_refl _
      · split at h
        · have hminute : (minuteOf candidate : Int) = candidate % 60 := by
            unfold minuteOf
            omega
          split at h
          · next next hnext =>
            have hmem := (List.min?_mem hnext : next ∈ _)
            have hlt : minuteOf candidate < next := of_decide_eq_true (List.mem_filter.mp hmem).2
            exact hlater (by omega) h
          · exact hlater (by omega) h
        · exact hlater (by omega) h
    · cases h

theorem CronExpression.lt_nextRun {e : CronExpression} {after n : Int} (h : e.nextRun after = some n) : after < n := by
  have hle := lt_of_nextRunFrom h
  unfold Cron.minute second at hle
  omega

/-- The job has an expression or a period. -/
def TriggerConfig.movesOn (t : TriggerConfig) : Bool :=
  t.cronExpr.isSome || (t.triggerType = .interval && t.intervalSeconds.any (0 < ·))

theorem ScheduledJob.trigger_updateNextRun (job : ScheduledJob) (now : Int) :
    (job.updateNextRun now).trigger = job.trigger := by
  unfold updateNextRun
  split
  · rfl
  · split
    · split <;> rfl
    · rfl

/-- After a firing, the next run is later than the scan. -/
theorem ScheduledJob.lt_updateNextRun {job : ScheduledJob} {now n : Int} (hmoves : job.trigger.movesOn = true)
    (h : (job.updateNextRun now).nextRun = some n) : now < n := by
  unfold updateNextRun at h
  unfold TriggerConfig.movesOn at hmoves
  split at h
  · exact CronExpression.lt_nextRun h
  · next hcron =>
    rw [hcron, Option.isSome_none, Bool.false_or, Bool.and_eq_true, decide_eq_true_eq] at hmoves
    obtain ⟨htype, hperiod⟩ := hmoves
    obtain ⟨period, hsome, hpos⟩ := (Option.any_eq_true _ _).mp hperiod
    have hpos : 0 < period := of_decide_eq_true hpos
    rw [htype, hsome] at h
    dsimp only at h
    rw [if_neg hpos.ne'] at h
    cases h
    unfold second
    omega

theorem ScheduledJob.due?_spec {job : ScheduledJob} {now due : Int} (h : job.due? now = some due) :
    job.enabled = true ∧ job.nextRun = some due ∧ due ≤ now := by
  unfold due? at h
  split at h
  · next hon =>
    obtain ⟨hnext, hle⟩ := Option.filter_eq_some_iff.mp h
    exact ⟨hon.1, hnext, of_decide_eq_true hle⟩
  · cases h

def Firing.slot (f : Firing) : String × Int := (f.jobId, f.due)

namespace CronScheduler

/-! ## Scans in the middle of a firing -/

/-- The scan waits for the task of the job, which it has fired because of this time. -/
def Holds (s : CronScheduler) (i : Nat) (id : String) (now : Int) : Prop :=
  ∃ scan, s.scans[i]? = some scan ∧ scan.firing = some id ∧ scan.now = now

def comesTo (s : CronScheduler) (i : Nat) : Option String :=
  (s.scans[i]?).bind fun scan => (s.turn scan.now scan.rest).map (·.1)

/-- The job is still registered, no scan is in the middle of firing it, and its next run can be moved on if it
has been fired before. -/
def Undisturbed (s : CronScheduler) (id : String) : Prop :=
  id ∈ s.registered ∧ (∀ scan ∈ s.scans, scan.firing ≠ some id) ∧
    ((s.objects.get? id).any (·.trigger.movesOn) = true ∨ ∀ f ∈ s.log, f.jobId ≠ id)

def Orderly (s : CronScheduler) (e : CronEvent) : Prop :=
  match s.arrive e with
  | (s, some i) => ∀ id ∈ s.comesTo i, s.Undisturbed id
  | (_, none) => True

instance (s : CronScheduler) (id : String) : Decidable (s.Undisturbed id) :=
  inferInstanceAs (Decidable (id ∈ s.registered ∧ (∀ scan ∈ s.scans, scan.firing ≠ some id) ∧
    ((s.objects.get? id).any (·.trigger.movesOn) = true ∨ ∀ f ∈ s.log, f.jobId ≠ id)))

instance (s : CronScheduler) (e : CronEvent) : Decidable (s.Orderly e) :=
  match h : s.arrive e with
  | (s', some i) => decidable_of_iff (∀ id ∈ (s'.comesTo i).toList, s'.Undisturbed id) (by simp [Orderly, h])
  | (_, none) => .isTrue (by simp [Orderly, h])

variable {s : CronScheduler}

theorem turn_spec {now : Int} {ids rest : List String} {id : String} {due : Int}
    (h : s.turn now ids = some (id, due, rest)) :
    ∃ job, s.objects.get? id = some job ∧ job.due? now = some due := by
  induction ids with
  | nil => cases h
  | cons id' ids ih =>
    unfold turn at h
    split at h
    · next hdue =>
      cases h
      exact Option.bind_eq_some_iff.mp hdue
    · exact ih h

theorem holds_set {i : Nat} {scan : Scan} {s' : CronScheduler} (hscans : s'.scans = s.scans.set i scan)
    (hi : (s.scans[i]?).isSome = true) (j : Nat) (id : String) (now : Int) :
    s'.Holds j id now ↔ (j = i ∧ scan.firing = some id ∧ scan.now = now) ∨ (j ≠ i ∧ s.Holds j id now) := by
  have hlen : i < s.scans.length := by simpa using hi
  unfold Holds
  rw [hscans, List.getElem?_set]
  by_cases hj : i = j
  · subst hj
    simp [hlen]
  · simp [hj, Ne.symm hj]

/-! ## The invariant -/

structure FiresOnce (s : CronScheduler) : Prop where
  alone : ∀ i j id now now', s.Holds i id now → s.Holds j id now' → i = j
  held : ∀ i id now, s.Holds i id now →
    ∃ job due, s.objects.get? id = some job ∧ job.nextRun = some due ∧ due ≤ now
  past : ∀ f ∈ s.log, ∀ job n, s.objects.get? f.jobId = some job → job.nextRun = some n →
    job.trigger.movesOn = true → f.due < n ∨ f.due = n ∧ ∃ i now, s.Holds i f.jobId now
  once : (s.log.map Firing.slot).Nodup
  wanted : ∀ f ∈ s.log, f.wanted = true

theorem firesOnce_start (jobs : Dict ScheduledJob) : FiresOnce (start jobs) where
  alone _ _ _ _ _ h := by
    obtain ⟨scan, hscan, -⟩ := h
    cases hscan
  held _ _ _ h := by
    obtain ⟨scan, hscan, -⟩ := h
    cases hscan
  past f hf := by cases hf
  once := List.nodup_nil
  wanted f hf := by cases hf

theorem firesOnce_frame {s' : CronScheduler} (h : FiresOnce s) (hlog : s'.log = s.log)
    (hholds : ∀ i id now, s'.Holds i id now ↔ s.Holds i id now)
    (hobjects : ∀ id, (s'.objects.get? id).map (fun job => (job.nextRun, job.trigger)) =
      (s.objects.get? id).map fun job => (job.nextRun, job.trigger)) : FiresOnce s' where
  alone i j id now now' hi hj := h.alone i j id now now' ((hholds i id now).mp hi) ((hholds j id now').mp hj)
  held i id now hi := by
    obtain ⟨job, due, hjob, hnext, hle⟩ := h.held i id now ((hholds i id now).mp hi)
    have hsame := hobjects id
    rw [hjob, Option.map_some] at hsame
    obtain ⟨job', hjob', hpair⟩ := Option.map_eq_some_iff.mp hsame
    obtain ⟨hnext', -⟩ := Prod.mk.inj hpair
    exact ⟨job', due, hjob', hnext'.trans hnext, hle⟩
  past f hf job' n hjob' hnext' hmoves := by
    have hsame := hobjects f.jobId
    rw [hjob', Option.map_some] at hsame
    obtain ⟨job, hjob, hpair⟩ := Option.map_eq_some_iff.mp hsame.symm
    obtain ⟨hnext, htrigger⟩ := Prod.mk.inj hpair
    refine (h.past f (hlog ▸ hf) job n hjob (hnext.trans hnext') (by rw [htrigger]; exact hmoves)).imp_right
      fun ⟨heq, i, now, hi⟩ => ?_
    exact ⟨heq, i, now, (hholds i f.jobId now).mpr hi⟩
  once := hlog ▸ h.once
  wanted f hf := h.wanted f (hlog ▸ hf)

/-- The job that a scan has fired is moved on, and the scan holds it no longer. -/
theorem firesOnce_finish (h : FiresOnce s) {i : Nat} {scan : Scan} {id : String} (hscan : s.scans[i]? = some scan)
    (hfiring : scan.firing = some id) (error : Option String) : FiresOnce (s.finish i scan id error) := by
  obtain ⟨job, due, hjob, hnext, hle⟩ := h.held i id scan.now ⟨scan, hscan, hfiring, rfl⟩
  have hholds (j : Nat) (id' : String) (now : Int) :
      (s.finish i scan id error).Holds j id' now ↔ j ≠ i ∧ s.Holds j id' now := by
    rw [holds_set (s := s) rfl (by rw [hscan]; rfl)]
    simp
  have hobjects (id' : String) : (s.finish i scan id error).objects.get? id' =
      if id' = id then some ((job.countOutcome error).updateNextRun scan.now) else s.objects.get? id' := by
    simp only [finish, hjob]
    exact Dict.get?_set ..
  have htrigger : (job.countOutcome error).trigger = job.trigger := by
    cases error <;> rfl
  refine ⟨fun j k id' now now' hj hk => ?_, fun j id' now hj => ?_, fun f hf job' n hjob' hn hmoves => ?_, h.once,
    h.wanted⟩
  · exact h.alone j k id' now now' ((hholds j id' now).mp hj).2 ((hholds k id' now').mp hk).2
  · obtain ⟨hne, hbefore⟩ := (hholds j id' now).mp hj
    have hother : id' ≠ id := by
      intro heq
      exact hne (h.alone j i id' now scan.now hbefore ⟨scan, hscan, by rw [heq, hfiring], rfl⟩)
    rw [hobjects, if_neg hother]
    exact h.held j id' now hbefore
  · rw [hobjects] at hjob'
    split at hjob'
    · next hid =>
      cases hjob'
      rw [ScheduledJob.trigger_updateNextRun] at hmoves
      have hlater : scan.now < n := ScheduledJob.lt_updateNextRun hmoves hn
      rw [htrigger] at hmoves
      rcases h.past f hf job due (by rw [hid]; exact hjob) hnext hmoves with hlt | ⟨heq, -⟩
      · exact .inl (by omega)
      · exact .inl (by omega)
    · next hid =>
      refine (h.past f hf job' n hjob' hn hmoves).imp_right fun ⟨heq, k, now, hk⟩ => ⟨heq, k, now, ?_⟩
      refine (hholds k f.jobId now).mpr ⟨?_, hk⟩
      rintro rfl
      obtain ⟨scan', hscan', hfiring', -⟩ := hk
      cases hscan.symm.trans hscan'
      exact hid (Option.some.inj (hfiring'.symm.trans hfiring))

/-- No scan holds an undisturbed job. -/
theorem not_holds_of_undisturbed {id : String} (h : s.Undisturbed id) (j : Nat) (now : Int) : ¬ s.Holds j id now := by
  rintro ⟨other, hother, hfiring, -⟩
  exact h.2.1 other (List.mem_of_getElem? hother) hfiring

/-- The due time of an undisturbed job has not been fired for. -/
theorem slot_ne (h : FiresOnce s) {id : String} (hundisturbed : s.Undisturbed id) {job : ScheduledJob} {due : Int}
    (hjob : s.objects.get? id = some job) (hnext : job.nextRun = some due) {f : Firing} (hf : f ∈ s.log) :
    f.slot ≠ (id, due) := by
  intro hslot
  obtain ⟨hid, hsame⟩ := Prod.mk.inj hslot
  rcases hundisturbed.2.2 with hmoves | hfirst
  · rw [hjob, Option.any_some] at hmoves
    rcases h.past f hf job due (by rw [hid]; exact hjob) hnext hmoves with hlt | ⟨-, k, now, hk⟩
    · omega
    · exact not_holds_of_undisturbed hundisturbed k now (hid ▸ hk)
  · exact hfirst f hf hid

/-- An undisturbed job that is due is fired. -/
theorem firesOnce_fire (h : FiresOnce s) {i : Nat} (hfree : ∀ id now, ¬ s.Holds i id now) {scan : Scan}
    (hscan : s.scans[i]? = some scan) {id : String} (hundisturbed : s.Undisturbed id) {job : ScheduledJob} {due : Int}
    (hjob : s.objects.get? id = some job) (hdue : job.due? scan.now = some due) (rest : List String) :
    FiresOnce (s.fire i scan id due rest) := by
  obtain ⟨henabled, hnext, hle⟩ := ScheduledJob.due?_spec hdue
  have hnone := not_holds_of_undisturbed hundisturbed
  have hholds (j : Nat) (id' : String) (now : Int) : (s.fire i scan id due rest).Holds j id' now ↔
      (j = i ∧ some id = some id' ∧ scan.now = now) ∨ (j ≠ i ∧ s.Holds j id' now) := by
    have hscans : (s.fire i scan id due rest).scans = s.scans.set i { scan with rest, firing := some id } := rfl
    exact holds_set hscans (by rw [hscan]; rfl) j id' now
  have hkept {j : Nat} {id' : String} {now : Int} (hj : s.Holds j id' now) :
      (s.fire i scan id due rest).Holds j id' now := by
    refine (hholds j id' now).mpr (.inr ⟨?_, hj⟩)
    rintro rfl
    exact hfree id' now hj
  refine ⟨fun j k id' now now' hj hk => ?_, fun j id' now hj => ?_, fun f hf job' n hjob' hn hmoves => ?_, ?_, ?_⟩
  · rcases (hholds j id' now).mp hj with ⟨rfl, hid, -⟩ | ⟨-, hj'⟩
    · rcases (hholds k id' now').mp hk with ⟨rfl, -, -⟩ | ⟨-, hk'⟩
      · rfl
      · cases hid
        exact absurd hk' (hnone k now')
    · rcases (hholds k id' now').mp hk with ⟨rfl, hid, -⟩ | ⟨-, hk'⟩
      · cases hid
        exact absurd hj' (hnone j now)
      · exact h.alone j k id' now now' hj' hk'
  · rcases (hholds j id' now).mp hj with ⟨rfl, hid, rfl⟩ | ⟨-, hj⟩
    · cases hid
      exact ⟨job, due, hjob, hnext, hle⟩
    · exact h.held j id' now hj
  · rcases List.mem_append.mp hf with hf | hf
    · exact (h.past f hf job' n hjob' hn hmoves).imp_right fun ⟨heq, k, now, hk⟩ => ⟨heq, k, now, hkept hk⟩
    · cases List.mem_singleton.mp hf
      cases hjob.symm.trans hjob'
      cases hnext.symm.trans hn
      exact .inr ⟨rfl, i, scan.now, (hholds i id scan.now).mpr (.inl ⟨rfl, rfl, rfl⟩)⟩
  · have hlog : (s.fire i scan id due rest).log.map Firing.slot = s.log.map Firing.slot ++ [(id, due)] :=
      List.map_append
    rw [hlog, List.nodup_append]
    refine ⟨h.once, by simp, ?_⟩
    rintro slot hslot _ hlast rfl
    obtain ⟨f, hf, rfl⟩ := List.mem_map.mp hslot
    exact slot_ne h hundisturbed hjob hnext hf (List.mem_singleton.mp hlast)
  · rintro f hf
    rcases List.mem_append.mp hf with hf | hf
    · exact h.wanted f hf
    · cases List.mem_singleton.mp hf
      simp [hundisturbed.1, hjob, henabled]

theorem firesOnce_goOn (h : FiresOnce s) {i : Nat} (hfree : ∀ id now, ¬ s.Holds i id now)
    (hundisturbed : ∀ id ∈ s.comesTo i, s.Undisturbed id) : FiresOnce (s.goOn i) := by
  unfold goOn
  split
  · exact h
  · next scan hscan =>
    split
    · have hidle : scan.firing = none := by
        cases hfiring : scan.firing with
        | none => rfl
        | some id => exact absurd ⟨scan, hscan, hfiring, rfl⟩ (hfree id scan.now)
      refine firesOnce_frame h rfl (fun j id now => ?_) fun _ => rfl
      rw [holds_set (s := s) rfl (by rw [hscan]; rfl)]
      constructor
      · rintro (⟨-, hfiring, -⟩ | ⟨-, hj⟩)
        · rw [hidle] at hfiring
          cases hfiring
        · exact hj
      · intro hj
        refine .inr ⟨?_, hj⟩
        rintro rfl
        exact hfree id now hj
    · next id due rest hturn =>
      obtain ⟨job, hjob, hdue⟩ := turn_spec hturn
      have hcomes : id ∈ s.comesTo i := by simp [comesTo, hscan, hturn]
      exact firesOnce_fire h hfree hscan (hundisturbed id hcomes) hjob hdue rest

/-- A scan that has just started holds nothing. -/
theorem holds_start (now : Int) (j : Nat) (id : String) (t : Int) :
    (s.arrive (.checkAndFire now)).1.Holds j id t ↔ s.Holds j id t ∧ j ≠ s.scans.length := by
  unfold Holds arrive
  dsimp only
  rw [List.getElem?_append]
  constructor
  · rintro ⟨scan, hscan, hfiring, ht⟩
    split at hscan
    · next hlt => exact ⟨⟨scan, hscan, hfiring, ht⟩, hlt.ne⟩
    · rw [List.getElem?_singleton] at hscan
      split at hscan
      · cases hscan
        cases hfiring
      · cases hscan
  · rintro ⟨⟨scan, hscan, hfiring, ht⟩, -⟩
    have hlt : j < s.scans.length := (List.getElem?_eq_some_iff.mp hscan).1
    rw [if_pos hlt]
    exact ⟨scan, hscan, hfiring, ht⟩

/-- What a scan goes on from keeps the invariant, and is not in the middle of a firing itself. -/
theorem firesOnce_arrive (h : FiresOnce s) (e : CronEvent) :
    FiresOnce (s.arrive e).1 ∧ ∀ i, (s.arrive e).2 = some i → ∀ id now, ¬ (s.arrive e).1.Holds i id now := by
  cases e with
  | checkAndFire now =>
    refine ⟨firesOnce_frame h rfl (fun j id t => ?_) fun _ => rfl, fun i hi id t hheld => ?_⟩
    · refine (holds_start now j id t).trans (and_iff_left_of_imp ?_)
      rintro ⟨scan, hscan, -⟩
      exact (List.getElem?_eq_some_iff.mp hscan).1.ne
    · cases hi
      exact ((holds_start now _ id t).mp hheld).2 rfl
  | proceed i error =>
    unfold arrive
    dsimp only
    split
    · exact ⟨h, nofun⟩
    · next scan hscan =>
      split
      · exact ⟨h, nofun⟩
      · next id hfiring =>
        refine ⟨firesOnce_finish h hscan hfiring error, fun j hj id' now hheld => ?_⟩
        cases hj
        rw [holds_set (s := s) rfl (by rw [hscan]; rfl)] at hheld
        simp at hheld
  | pauseJob id =>
    unfold arrive
    dsimp only
    split
    · next job _ hjob =>
      refine ⟨firesOnce_frame h rfl (fun _ _ _ => Iff.rfl) fun id' => ?_, nofun⟩
      dsimp only
      rw [Dict.get?_set]
      split
      · next hid =>
        rw [hid, hjob]
        rfl
      · rfl
    · exact ⟨h, nofun⟩
  | removeJob id => exact ⟨firesOnce_frame h rfl (fun _ _ _ => Iff.rfl) fun _ => rfl, nofun⟩

theorem firesOnce_step (h : FiresOnce s) {e : CronEvent} (horderly : s.Orderly e) : FiresOnce (s.step e) := by
  obtain ⟨harrive, hfree⟩ := firesOnce_arrive h e
  unfold Orderly at horderly
  unfold step
  generalize s.arrive e = next at harrive hfree horderly ⊢
  obtain ⟨s', turn⟩ := next
  cases turn with
  | none => exact harrive
  | some i => exact firesOnce_goOn harrive (hfree i rfl) horderly

/-! ## Every interleaving -/

/-- **Each due time of a job is fired for at most once, and no job that was paused or removed before its turn,
where every scan fires only jobs that are still registered, that no scan is in the middle of firing, and whose
next run can be moved on if they have been fired before.** -/
theorem fires_once (jobs : Dict ScheduledJob) (events : List CronEvent)
    (horderly : Lib.Admitted step Orderly (start jobs) events) :
    ((Lib.run step (start jobs) events).log.map Firing.slot).Nodup ∧
      ∀ f ∈ (Lib.run step (start jobs) events).log, f.wanted = true := by
  have hinv := horderly.invariant FiresOnce (firesOnce_start jobs) fun s e h hok => firesOnce_step h hok
  exact ⟨hinv.once, hinv.wanted⟩

def hourly : CronExpression where
  minute := [0]
  hour := List.range 24
  dayOfMonth := List.range 32
  month := List.range 13
  dayOfWeek := List.range 7

def twoJobs : Dict ScheduledJob :=
  [("a", { trigger := { triggerType := .cron, cronExpr := some hourly }, nextRun := some 0 }),
    ("b", { trigger := { triggerType := .cron, cronExpr := some hourly }, nextRun := some 0 })]

/-- Two scans that overlap fire `a` twice for one due time, and `b` is fired although it has been removed. -/
theorem overlapping_scans_fire_twice :
    (¬ ∀ (jobs : Dict ScheduledJob) (events : List CronEvent),
      ((Lib.run step (start jobs) events).log.map Firing.slot).Nodup) ∧
    ¬ ∀ (jobs : Dict ScheduledJob) (events : List CronEvent), ∀ f ∈ (Lib.run step (start jobs) events).log,
      f.wanted = true := by
  constructor
  · intro h
    have hnodup := h twoJobs [.checkAndFire 5, .checkAndFire 5]
    revert hnodup
    decide +kernel
  · intro h
    have hwanted := h twoJobs [.checkAndFire 5, .removeJob "b", .proceed 0 none]
    revert hwanted
    decide +kernel

theorem scans_in_turn_fire_once :
    ((Lib.run step (start twoJobs) [.checkAndFire 5, .proceed 0 none, .pauseJob "a", .proceed 0 (some "x"),
      .checkAndFire 6]).log.map Firing.slot).Nodup :=
  (fires_once twoJobs _ (by decide +kernel)).1

end CronScheduler

end Occp.Cron
