import Occp.Adapters.MultiLlmPlanner

/-!
# The circuit breaker of the executor (`adapters/openclaw_executor.py`)

Calls of `execute` side by side, as the breaker sees them. It goes by states where the health of a
planner's provider goes by counts, and comes to the same.
-/

namespace Occp.OpenClaw

open Lib (run run_cons Admitted Breaker BreakerEvent run_append admitted_append)
open Adapters (ProviderHealth)

inductive CircuitState where
  | closed
  | open
  | halfOpen
  deriving DecidableEq

structure CircuitBreaker where
  failureThreshold : Int := 5
  recoveryTimeout : Rat := 60
  consecutiveFailures : Nat := 0
  lastFailureTime : Option Rat := none
  circuit : CircuitState := .closed

namespace CircuitBreaker

variable (cb : CircuitBreaker) (now : Rat)

/-- The property `state`, which half-opens the circuit once the timeout is over. -/
def state : CircuitState × CircuitBreaker :=
  match cb.circuit, cb.lastFailureTime with
  | .open, some lastFailureTime =>
    if cb.recoveryTimeout ≤ now - lastFailureTime then (.halfOpen, { cb with circuit := .halfOpen }) else (.open, cb)
  | circuit, _ => (circuit, cb)

def isClosed : Bool × CircuitBreaker :=
  let (state, cb) := cb.state now
  (state = .closed ∨ state = .halfOpen, cb)

def recordSuccess : CircuitBreaker := { cb with consecutiveFailures := 0, circuit := .closed }

def recordFailure : CircuitBreaker :=
  let consecutiveFailures := cb.consecutiveFailures + 1
  { cb with
    consecutiveFailures
    lastFailureTime := some now
    circuit := if cb.failureThreshold ≤ consecutiveFailures then .open else cb.circuit }

def breaker : Breaker Rat := { failures := cb.consecutiveFailures, lastFailure := cb.lastFailureTime }

/-- What the states say of the counts, with the clock at `now`. -/
structure Sound (now : Rat) : Prop where
  threshold : 0 < cb.failureThreshold
  closed : cb.circuit = .closed ↔ cb.consecutiveFailures < cb.failureThreshold
  last : cb.circuit ≠ .closed → cb.lastFailureTime ≠ none
  halfOpen : cb.circuit = .halfOpen → ∀ t, cb.lastFailureTime = some t → cb.recoveryTimeout ≤ now - t

variable {cb now} {now' : Rat}

theorem sound_new (failureThreshold : Int) (recoveryTimeout : Rat) (h : 0 < failureThreshold) (now : Rat) :
    Sound { failureThreshold, recoveryTimeout } now where
  threshold := h
  closed := by simpa using h
  last := fun hne => absurd rfl hne
  halfOpen := nofun

theorem Sound.later (h : cb.Sound now) (hle : now ≤ now') : cb.Sound now' where
  threshold := h.threshold
  closed := h.closed
  last := h.last
  halfOpen := fun hhalf t ht => by
    have := h.halfOpen hhalf t ht
    linarith

/-- What reading the property comes to. -/
theorem Sound.isClosed_cases (h : cb.Sound now) :
    (cb.circuit ≠ .open ∧ cb.isClosed now = (true, cb)) ∨
      ∃ t, cb.circuit = .open ∧ cb.lastFailureTime = some t ∧
        (cb.recoveryTimeout ≤ now - t ∧ cb.isClosed now = (true, { cb with circuit := .halfOpen }) ∨
          ¬ cb.recoveryTimeout ≤ now - t ∧ cb.isClosed now = (false, cb)) := by
  cases hcircuit : cb.circuit with
  | closed => exact .inl ⟨nofun, by simp [isClosed, state, hcircuit]⟩
  | halfOpen => exact .inl ⟨nofun, by simp [isClosed, state, hcircuit]⟩
  | «open» =>
    cases hlast : cb.lastFailureTime with
    | none => exact absurd hlast (h.last (by simp [hcircuit]))
    | some t =>
      refine .inr ⟨t, rfl, rfl, ?_⟩
      by_cases hover : cb.recoveryTimeout ≤ now - t
      · exact .inl ⟨hover, by simp [isClosed, state, hcircuit, hlast, hover]⟩
      · exact .inr ⟨hover, by simp only [isClosed, state, hcircuit, hlast, if_neg hover]; rfl⟩

/-- Reading the property keeps the counts, and answers as they do. -/
theorem Sound.isClosed (h : cb.Sound now) :
    (cb.isClosed now).2.Sound now ∧ (∃ circuit, (cb.isClosed now).2 = { cb with circuit }) ∧
      ((cb.isClosed now).1 = true ↔ cb.breaker.Lets cb.failureThreshold cb.recoveryTimeout now) := by
  have hmany (hcircuit : cb.circuit ≠ .closed) : ¬ (cb.consecutiveFailures : Int) < cb.failureThreshold :=
    fun hfew => hcircuit (h.closed.mpr hfew)
  rcases h.isClosed_cases with ⟨hcircuit, heq⟩ | ⟨t, hcircuit, hlast, ⟨hover, heq⟩ | ⟨hover, heq⟩⟩
  · rw [heq]
    refine ⟨h, ⟨cb.circuit, rfl⟩, iff_of_true rfl ?_⟩
    by_cases hclosed : cb.circuit = .closed
    · exact .inl (h.closed.mp hclosed)
    · refine .inr (h.halfOpen ?_)
      cases hstate : cb.circuit with
      | closed => exact absurd hstate hclosed
      | «open» => exact absurd hstate hcircuit
      | halfOpen => rfl
  · rw [heq]
    have hopen : cb.circuit ≠ .closed := by simp [hcircuit]
    refine ⟨⟨h.threshold, ?_, fun _ => ?_, fun _ t' ht' => ?_⟩, ⟨_, rfl⟩, iff_of_true rfl (.inr fun t' ht' => ?_)⟩
    · simpa using hmany hopen
    · simp [hlast]
    · obtain rfl : t = t' := Option.some.inj (hlast.symm.trans ht')
      exact hover
    · obtain rfl : t = t' := Option.some.inj (hlast.symm.trans ht')
      exact hover
  · rw [heq]
    refine ⟨h, ⟨cb.circuit, rfl⟩, iff_of_false Bool.false_ne_true ?_⟩
    rintro (hfew | hcool)
    · exact hmany (by simp [hcircuit]) hfew
    · exact hover (hcool t hlast)

theorem Sound.recordSuccess (h : cb.Sound now) : cb.recordSuccess.Sound now where
  threshold := h.threshold
  closed := by simpa [CircuitBreaker.recordSuccess] using h.threshold
  last := fun hne => absurd rfl hne
  halfOpen := nofun

theorem Sound.recordFailure (h : cb.Sound now) : (cb.recordFailure now).Sound now := by
  by_cases hmany : cb.failureThreshold ≤ cb.consecutiveFailures + 1
  · refine ⟨h.threshold, ?_, fun _ => nofun, ?_⟩ <;> simp [CircuitBreaker.recordFailure, hmany]
  · have hcircuit : cb.circuit = .closed := h.closed.mpr (by omega)
    refine ⟨h.threshold, ?_, fun _ => nofun, ?_⟩ <;> simp [CircuitBreaker.recordFailure, hmany, hcircuit]
    omega

end CircuitBreaker

/-! ## The two breakers -/

/-- What is asked of a breaker, and what it is told. -/
inductive BreakerCall where
  | check (now : Rat)
  | success (latency : Rat)
  | failure (now : Rat)

def BreakerCall.time? : BreakerCall → Option Rat
  | check now => some now
  | success _ => none
  | failure now => some now

def CircuitBreaker.step (cb : CircuitBreaker) : BreakerCall → CircuitBreaker
  | .check now => (cb.isClosed now).2
  | .success _ => cb.recordSuccess
  | .failure now => cb.recordFailure now

def healthStep (h : ProviderHealth) : BreakerCall → ProviderHealth
  | .check _ => h
  | .success latency => h.recordSuccess latency
  | .failure now => h.recordFailure now

/-- The clock goes forward. -/
def Forward (now : Rat) (calls : List BreakerCall) : Prop := (calls.filterMap BreakerCall.time? ++ [now]).Pairwise (· ≤ ·)

/-- The breaker and the health have the same counts and bounds. -/
structure Same (cb : CircuitBreaker) (h : ProviderHealth) : Prop where
  failures : cb.consecutiveFailures = h.consecutiveFailures
  last : cb.lastFailureTime = h.lastFailure
  threshold : cb.failureThreshold = h.maxConsecutiveFailures
  cooldown : cb.recoveryTimeout = h.cooldownSeconds

theorem same_run {cb : CircuitBreaker} {h : ProviderHealth} {clock now : Rat} {calls : List BreakerCall} (hsame : Same cb h)
    (hsound : cb.Sound clock) (hforward : Forward now calls) (hclock : ∀ t ∈ calls.filterMap BreakerCall.time? ++ [now], clock ≤ t) :
    Same (run CircuitBreaker.step cb calls) (run healthStep h calls) ∧ (run CircuitBreaker.step cb calls).Sound now := by
  induction calls generalizing cb h clock with
  | nil => exact ⟨hsame, hsound.later (hclock now (by simp))⟩
  | cons call calls ih =>
    unfold Forward at hforward ih
    cases call with
    | check t =>
      obtain ⟨hfirst, hforward⟩ := List.pairwise_cons.mp hforward
      obtain ⟨hsound', ⟨circuit, heq⟩, -⟩ := (hsound.later (hclock t (by simp [BreakerCall.time?]))).isClosed
      rw [run_cons, run_cons, CircuitBreaker.step, healthStep]
      rw [heq] at hsound' ⊢
      exact ih ⟨hsame.failures, hsame.last, hsame.threshold, hsame.cooldown⟩ hsound' hforward hfirst
    | success latency =>
      exact ih ⟨rfl, hsame.last, hsame.threshold, hsame.cooldown⟩ hsound.recordSuccess hforward hclock
    | failure t =>
      obtain ⟨hfirst, hforward⟩ := List.pairwise_cons.mp hforward
      refine ih ⟨?_, rfl, hsame.threshold, hsame.cooldown⟩ (hsound.later (hclock t (by simp [BreakerCall.time?]))).recordFailure
        hforward hfirst
      exact congrArg (· + 1) hsame.failures

/-- **One breaker, written twice.** With a threshold of at least one and a clock that goes forward, the
circuit of the executor lets a call start just when a provider with that history is healthy. -/
theorem breakers_agree (threshold : Int) (cooldown : Rat) (name : String) (hthreshold : 0 < threshold) (calls : List BreakerCall)
    (now : Rat) (hforward : Forward now calls) :
    ((run CircuitBreaker.step { failureThreshold := threshold, recoveryTimeout := cooldown } calls).isClosed now).1 =
      (run healthStep { name, maxConsecutiveFailures := threshold, cooldownSeconds := cooldown } calls).isHealthy now := by
  -- The clock starts no later than its first reading.
  obtain ⟨clock, hclock⟩ : ∃ clock, ∀ t ∈ calls.filterMap BreakerCall.time? ++ [now], clock ≤ t := by
    unfold Forward at hforward
    cases htimes : calls.filterMap BreakerCall.time? ++ [now] with
    | nil => exact ⟨now, List.forall_mem_nil _⟩
    | cons first rest =>
      rw [htimes] at hforward
      exact ⟨first, List.forall_mem_cons.mpr ⟨le_rfl, (List.pairwise_cons.mp hforward).1⟩⟩
  have hnew : Same { failureThreshold := threshold, recoveryTimeout := cooldown }
      { name, maxConsecutiveFailures := threshold, cooldownSeconds := cooldown } := ⟨rfl, rfl, rfl, rfl⟩
  obtain ⟨hsame, hsound⟩ := same_run hnew (CircuitBreaker.sound_new threshold cooldown hthreshold clock) hforward hclock
  rw [Bool.eq_iff_iff, hsound.isClosed.2.2, ProviderHealth.isHealthy_iff, CircuitBreaker.breaker, ProviderHealth.breaker,
    hsame.failures, hsame.last, hsame.threshold, hsame.cooldown]

theorem breakers_agree_after_recovery :
    ((run CircuitBreaker.step { failureThreshold := 2, recoveryTimeout := 10 }
        [.failure 0, .failure 1, .check 5, .check 12, .success 3, .failure 16]).isClosed 17).1 =
      (run healthStep { name := "echo", maxConsecutiveFailures := 2, cooldownSeconds := 10 }
        [.failure 0, .failure 1, .check 5, .check 12, .success 3, .failure 16]).isHealthy 17 :=
  breakers_agree 2 10 "echo" (by decide) _ 17 (by unfold Forward; decide +kernel)

/-! ## `execute` -/

/-- How a call ends that the breaker has let start. -/
inductive Outcome where
  | completed
  /-- What follows the reply raises. -/
  | lateFailure
  | failed
  | budgetRefused
  | cancelled
  deriving DecidableEq

inductive ExecutorEvent where
  | execute (now : Rat)
  | finish (outcome : Outcome) (now : Rat)

def ExecutorEvent.now : ExecutorEvent → Rat
  | .execute now => now
  | .finish _ now => now

/-- The call ends and tells the breaker nothing. -/
def ExecutorEvent.unrecorded : ExecutorEvent → Bool
  | .finish .budgetRefused _ => true
  | .finish .cancelled _ => true
  | _ => false

/-- The call has its reply. -/
def ExecutorEvent.succeeds : ExecutorEvent → Bool
  | .finish .completed _ => true
  | .finish .lateFailure _ => true
  | _ => false

/-- The breaker, the number of calls that are under way, and the last time that the clock was read. -/
structure OpenClawExecutor where
  circuit : CircuitBreaker := {}
  underWay : Nat := 0
  clock : Rat := 0

namespace OpenClawExecutor

def new (failureThreshold : Int) (recoveryTimeout clock : Rat) : OpenClawExecutor where
  circuit := { failureThreshold, recoveryTimeout }
  clock := clock

variable (s : OpenClawExecutor)

def step : ExecutorEvent → OpenClawExecutor
  | .execute now =>
    let (isClosed, circuit) := s.circuit.isClosed now
    { circuit, underWay := if isClosed then s.underWay + 1 else s.underWay, clock := now }
  | .finish outcome now =>
    let circuit := match outcome with
      | .completed => s.circuit.recordSuccess
      | .lateFailure => s.circuit.recordSuccess.recordFailure now
      | .failed => s.circuit.recordFailure now
      | .budgetRefused => s.circuit
      | .cancelled => s.circuit
    { circuit, underWay := s.underWay - 1, clock := now }

/-- The clock goes forward, no more than `limit` calls are under way, and what ends is under way. -/
def Ok (limit : Nat) : ExecutorEvent → Prop
  | .execute now => s.clock ≤ now ∧ s.underWay < limit
  | .finish _ now => s.clock ≤ now ∧ 0 < s.underWay

/-- What the breaker sees of a step. -/
def uses : ExecutorEvent → List (BreakerEvent Rat)
  | .execute now => if (s.circuit.isClosed now).1 then [.start now] else []
  | .finish .completed _ => [.success, .leave]
  | .finish .lateFailure now => [.success, .failure now]
  | .finish .failed now => [.failure now]
  | .finish .budgetRefused _ => [.leave]
  | .finish .cancelled _ => [.leave]

def guarded : Breaker.Guarded Rat where
  breaker := s.circuit.breaker
  underWay := s.underWay

/-- How many calls the breaker lets start in the run. -/
def started (events : List ExecutorEvent) : Nat := Breaker.starts (Breaker.trace step uses s events)

/-- The step happens before the timeout is over, counted from `opening`, and no call succeeds in it. -/
def FailsIn (opening timeout : Rat) (_ : OpenClawExecutor) (e : ExecutorEvent) : Prop :=
  opening ≤ e.now ∧ e.now < opening + timeout ∧ e.succeeds = false

structure Inv (threshold : Int) (timeout : Rat) (limit : Nat) : Prop where
  sound : s.circuit.Sound s.clock
  threshold : s.circuit.failureThreshold = threshold
  timeout : s.circuit.recoveryTimeout = timeout
  room : s.underWay ≤ limit

variable {s} {threshold : Int} {timeout : Rat} {limit : Nat}

theorem Inv.step (h : s.Inv threshold timeout limit) {e : ExecutorEvent} (hok : s.Ok limit e) :
    (s.step e).Inv threshold timeout limit ∧
      Breaker.Follows threshold timeout limit s.guarded (s.step e).guarded (s.uses e) := by
  cases e with
  | execute now =>
    obtain ⟨hclock, hroom⟩ := hok
    obtain ⟨hsound, ⟨circuit, heq⟩, hclosed⟩ := (h.sound.later hclock).isClosed
    obtain ⟨isClosed, hisClosed⟩ : ∃ b, (s.circuit.isClosed now).1 = b := ⟨_, rfl⟩
    rw [heq] at hsound
    have hstep : s.step (.execute now) =
        { circuit := { s.circuit with circuit }, underWay := if isClosed then s.underWay + 1 else s.underWay, clock := now } := by
      rw [OpenClawExecutor.step, ← hisClosed, ← heq]
    rw [hstep, uses, hisClosed]
    have hlimit : (if isClosed then s.underWay + 1 else s.underWay) ≤ limit := by split <;> omega
    refine ⟨⟨hsound, h.threshold, h.timeout, hlimit⟩, Breaker.follows_start rfl ?_ hlimit fun hcall => ?_⟩
    · cases isClosed <;> rfl
    · have hlets := hclosed.mp (hisClosed.trans hcall)
      rwa [h.threshold, h.timeout] at hlets
  | finish outcome now =>
    obtain ⟨hclock, hsome⟩ := hok
    have hlater := h.sound.later hclock
    have hroom := h.room
    cases outcome with
    | completed =>
      exact ⟨⟨hlater.recordSuccess, h.threshold, h.timeout, (Nat.sub_le _ _).trans hroom⟩, rfl, trivial, hsome, trivial⟩
    | lateFailure =>
      exact ⟨⟨hlater.recordSuccess.recordFailure, h.threshold, h.timeout, (Nat.sub_le _ _).trans hroom⟩, rfl, trivial, hsome, trivial⟩
    | failed =>
      exact ⟨⟨hlater.recordFailure, h.threshold, h.timeout, (Nat.sub_le _ _).trans hroom⟩, rfl, hsome, trivial⟩
    | budgetRefused => exact ⟨⟨hlater, h.threshold, h.timeout, (Nat.sub_le _ _).trans hroom⟩, rfl, hsome, trivial⟩
    | cancelled => exact ⟨⟨hlater, h.threshold, h.timeout, (Nat.sub_le _ _).trans hroom⟩, rfl, hsome, trivial⟩

theorem uses_within {opening : Rat} {e : ExecutorEvent} (h : FailsIn opening timeout s e) :
    (∀ u ∈ s.uses e, Breaker.Within timeout opening u) ∧ Breaker.leaves (s.uses e) ≤ if e.unrecorded then 1 else 0 := by
  obtain ⟨hopen, hclose, hfails⟩ := h
  cases e with
  | execute now =>
    rw [uses]
    cases (s.circuit.isClosed now).1 <;> simp [Breaker.leaves, Breaker.Within]
    exact hclose
  | finish outcome now =>
    cases outcome with
    | completed => cases hfails
    | lateFailure => cases hfails
    | failed => exact ⟨List.forall_mem_singleton.mpr hopen, Nat.zero_le _⟩
    | budgetRefused => exact ⟨List.forall_mem_singleton.mpr trivial, le_rfl⟩
    | cancelled => exact ⟨List.forall_mem_singleton.mpr trivial, le_rfl⟩

/-- **A gateway that is down is left alone.** In any part of a run that is over before the recovery
timeout is, and in which no call succeeds, the breaker lets no more calls start than the threshold less
one and the calls under way allow, but for those that tell it nothing: a refused budget does not trip it. -/
theorem executions_bounded (threshold : Int) (timeout clock : Rat) (hthreshold : 0 < threshold) (limit : Nat)
    (before window : List ExecutorEvent) (opening : Rat)
    (hok : Admitted step (Ok · limit) (new threshold timeout clock) (before ++ window))
    (hfails : Admitted step (FailsIn opening timeout) (run step (new threshold timeout clock) before) window) :
    (run step (new threshold timeout clock) before).started window ≤
      (threshold - 1).toNat + limit + window.countP ExecutorEvent.unrecorded := by
  obtain ⟨hbefore, hwindow⟩ := admitted_append.mp hok
  have hstart : Inv (new threshold timeout clock) threshold timeout limit :=
    ⟨CircuitBreaker.sound_new threshold timeout hthreshold clock, rfl, rfl, Nat.zero_le _⟩
  have hstep (s : OpenClawExecutor) (e : ExecutorEvent) (hs : s.Inv threshold timeout limit) (he : s.Ok limit e) := hs.step he
  have hafter := (Breaker.follows_run guarded _ hstep hstart hbefore).1
  have hfollows := (Breaker.follows_run guarded _ hstep hafter hwindow).2
  have huses (s : OpenClawExecutor) (e : ExecutorEvent) (h : FailsIn opening timeout s e) := uses_within h
  obtain ⟨hwithin, hleaves⟩ := Breaker.trace_within huses hfails
  have := Breaker.starts_le hfollows.2 hwithin
  unfold started
  omega

instance (limit : Nat) (e : ExecutorEvent) : Decidable (s.Ok limit e) :=
  match e with
  | .execute now => inferInstanceAs (Decidable (s.clock ≤ now ∧ s.underWay < limit))
  | .finish _ now => inferInstanceAs (Decidable (s.clock ≤ now ∧ 0 < s.underWay))

instance (opening timeout : Rat) (e : ExecutorEvent) : Decidable (FailsIn opening timeout s e) :=
  inferInstanceAs (Decidable (_ ∧ _))

/-- Two calls at a time of a gateway that is down, with a threshold of two. -/
theorem executions_bounded_two :
    (new 2 60 0).started [.execute 1, .execute 2, .finish .failed 3, .execute 4, .finish .failed 5, .finish .failed 6, .execute 7]
      ≤ 3 :=
  executions_bounded 2 60 0 (by decide) 2 [] _ 0 (by decide +kernel) (by decide +kernel)

end OpenClawExecutor

end Occp.OpenClaw
