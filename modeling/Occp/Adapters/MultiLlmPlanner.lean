import Mathlib.Algebra.Order.BigOperators.Group.List
import Mathlib.Data.List.Induction
import Mathlib.Data.List.Sort
import Mathlib.Data.Rat.Floor
import Occp.Lib.Breaker
import Occp.Lib.Places
import Occp.Lib.Rounding
import Occp.Lib.Workers
import Occp.Orchestrator.Models

/-!
# The planner with failover (`adapters/multi_llm_planner.py`)

Calls of `create_plan` side by side. A step takes one call to its next await, which is the answer of a
provider, and reads the clock once.
-/

namespace Occp.Adapters

open Lib (run Admitted Breaker BreakerEvent roundTo run_invariant countP_set_add sum_map_set)

structure ProviderHealth where
  name : String
  totalCalls : Nat := 0
  failures : Nat := 0
  totalLatency : Rat := 0
  lastFailure : Option Rat := none
  consecutiveFailures : Nat := 0
  maxConsecutiveFailures : Int := 3
  cooldownSeconds : Rat := 300

namespace ProviderHealth

variable (h : ProviderHealth)

def isHealthy (now : Rat) : Bool :=
  if h.consecutiveFailures < h.maxConsecutiveFailures then true
  else
    match h.lastFailure with
    | none => true
    | some lastFailure => h.cooldownSeconds ≤ now - lastFailure

def avgLatency : Rat :=
  let successful := h.totalCalls - h.failures
  if successful ≤ 0 then 0 else h.totalLatency / successful

def successRate : Rat :=
  if h.totalCalls = 0 then 100 else (h.totalCalls - h.failures) / h.totalCalls * 100

def recordSuccess (latency : Rat) : ProviderHealth :=
  { h with totalCalls := h.totalCalls + 1, totalLatency := h.totalLatency + latency, consecutiveFailures := 0 }

def recordFailure (now : Rat) : ProviderHealth :=
  { h with
    totalCalls := h.totalCalls + 1
    failures := h.failures + 1
    consecutiveFailures := h.consecutiveFailures + 1
    lastFailure := some now }

def breaker : Breaker Rat := { failures := h.consecutiveFailures, lastFailure := h.lastFailure }

theorem isHealthy_iff {h : ProviderHealth} {now : Rat} :
    h.isHealthy now = true ↔ h.breaker.Lets h.maxConsecutiveFailures h.cooldownSeconds now := by
  unfold isHealthy Breaker.Lets breaker
  by_cases hfew : (h.consecutiveFailures : Int) < h.maxConsecutiveFailures
  · simp [hfew]
  · cases hlast : h.lastFailure with
    | none => simp [hfew]
    | some lastFailure => simp [hfew]

end ProviderHealth

structure Provider where
  priority : Int
  name : String

structure MultiLLMPlanner where
  providers : List Provider := []
  health : Dict ProviderHealth := []

namespace MultiLLMPlanner

/-- `list.sort` keeps the order of equal priorities, and so does `insertionSort`. -/
def addProvider (p : MultiLLMPlanner) (name : String) (priority : Int := 50) (maxFailures : Int := 3)
    (cooldown : Rat := 300) : MultiLLMPlanner where
  providers := (p.providers ++ [(⟨priority, name⟩ : Provider)]).insertionSort fun a b => a.priority ≤ b.priority
  health := p.health.set name { name, maxConsecutiveFailures := maxFailures, cooldownSeconds := cooldown }

structure Registration where
  name : String
  priority : Int := 50
  maxFailures : Int := 3
  cooldown : Rat := 300

/-- The planner that the application sets up, before it makes plans. -/
def registered (registrations : List Registration) : MultiLLMPlanner :=
  registrations.foldl (fun p r => p.addProvider r.name r.priority r.maxFailures r.cooldown) {}

/-- `self._health[name]`. Each provider has one. -/
def healthOf (p : MultiLLMPlanner) (name : String) : ProviderHealth := (p.health.get? name).getD { name }

def setHealth (p : MultiLLMPlanner) (name : String) (h : ProviderHealth) : MultiLLMPlanner :=
  { p with health := p.health.set name h }

def getHealth (p : MultiLLMPlanner) (now : Rat) : Dict Value :=
  p.health.map fun (name, h) => (name, .dict [("healthy", .bool (h.isHealthy now)), ("total_calls", .int h.totalCalls),
    ("failures", .int h.failures), ("success_rate", .float (roundTo 1 h.successRate)),
    ("avg_latency_ms", .float (roundTo 1 (h.avgLatency * 1000))), ("consecutive_failures", .int h.consecutiveFailures)])

end MultiLLMPlanner

/-! ## `create_plan` -/

inductive ChainEntry where
  | circuitOpen (provider : String) (consecutiveFailures : Nat)
  | success (provider : String) (latencyMs : Rat)
  | failed (provider error : String)

namespace ChainEntry

def provider : ChainEntry → String
  | circuitOpen provider _ => provider
  | success provider _ => provider
  | failed provider _ => provider

def toValue : ChainEntry → Value
  | circuitOpen provider consecutiveFailures =>
    .dict [("provider", .str provider), ("status", .str "circuit_open"), ("consecutive_failures", .int consecutiveFailures)]
  | success provider latencyMs =>
    .dict [("provider", .str provider), ("status", .str "success"), ("latency_ms", .float latencyMs)]
  | failed provider error => .dict [("provider", .str provider), ("status", .str "failed"), ("error", .str error)]

/-- The provider answered with a plan. -/
def succeeded : ChainEntry → Bool
  | success _ _ => true
  | _ => false

/-- The provider was asked. -/
def asked : ChainEntry → Bool
  | circuitOpen _ _ => false
  | _ => true

end ChainEntry

inductive PlanStage where
  /-- The call awaits the provider, with these to try after it. -/
  | calling (name : String) (t0 : Rat) (rest : List Provider)
  | returned (plan : Dict Value)
  | cancelled

/-- A call of `create_plan`. -/
structure Planning where
  task : Task
  chain : List ChainEntry
  lastError : Option String
  stage : PlanStage

namespace Planning

def emergencyFallback (task : Task) (chain : List ChainEntry) (lastError : Option String) : Dict Value :=
  [("strategy", .str "emergency-fallback"), ("description", .str task.description),
    ("steps", .list [.str s!"Analyze: {task.name}", .str s!"Execute: {task.description}", .str "Validate results"]),
    ("_provider", .str "none"), ("_provider_chain", .list (chain.map ChainEntry.toValue)), ("_failover", .bool true),
    ("_all_providers_exhausted", .bool true), ("_last_error", (lastError.map Value.str).getD .none)]

/-- The loop over the providers that are left, up to the first that is healthy. -/
def advance (p : MultiLLMPlanner) (now : Rat) (task : Task) (lastError : Option String) (chain : List ChainEntry) :
    List Provider → Planning
  | [] => { task, chain, lastError, stage := .returned (emergencyFallback task chain lastError) }
  | ⟨_, name⟩ :: rest =>
    if (p.healthOf name).isHealthy now then { task, chain, lastError, stage := .calling name now rest }
    else advance p now task lastError (chain ++ [.circuitOpen name (p.healthOf name).consecutiveFailures]) rest

/-- What `create_plan` adds to the plan of the provider. -/
def annotated (name : String) (chain : List ChainEntry) (plan : Dict Value) : Dict Value :=
  ((plan.set "_provider" (.str name)).set "_provider_chain" (.list (chain.map ChainEntry.toValue))).set "_failover"
    (.bool (1 < chain.length))

/-- The call awaits the provider of that name. -/
def calls (name : String) (c : Planning) : Bool :=
  match c.stage with
  | .calling called _ _ => called = name
  | _ => false

def underWay (c : Planning) : Bool :=
  match c.stage with
  | .calling _ _ _ => true
  | _ => false

end Planning

/-- What the provider's answer comes to: a plan with an `_error` in it counts as raised. -/
def planOf (str : Value → String) : Except PyError (Dict Value) → Except String (Dict Value)
  | .error exc => .error exc.str
  | .ok plan =>
    match plan.get? "_error" with
    | some error => if error.truthy then .error (str error) else .ok plan
    | none => .ok plan

inductive PlanEvent where
  | createPlan (task : Task) (now : Rat)
  | answer (k : Nat) (reply : Except PyError (Dict Value)) (now : Rat)
  | cancel (k : Nat)

/-- A planner and the calls of its `create_plan`. -/
structure Planners where
  planner : MultiLLMPlanner
  plans : List Planning := []

namespace Planners

variable (str : Value → String) (s : Planners)

def createPlan (task : Task) (now : Rat) : Planners :=
  { s with plans := s.plans ++ [Planning.advance s.planner now task none [] s.planner.providers] }

/-- The provider has answered the call `k`, which is `c`. -/
def answered (k : Nat) (c : Planning) (name : String) (t0 : Rat) (rest : List Provider)
    (reply : Except String (Dict Value)) (now : Rat) : Planners :=
  match reply with
  | .ok plan =>
    let latency := now - t0
    let chain := c.chain ++ [.success name (roundTo 1 (latency * 1000))]
    { planner := s.planner.setHealth name ((s.planner.healthOf name).recordSuccess latency)
      plans := s.plans.set k { c with chain, stage := .returned (Planning.annotated name chain plan) } }
  | .error error =>
    let planner := s.planner.setHealth name ((s.planner.healthOf name).recordFailure now)
    { planner
      plans := s.plans.set k (Planning.advance planner now c.task (some error) (c.chain ++ [.failed name error]) rest) }

def step : PlanEvent → Planners
  | .createPlan task now => s.createPlan task now
  | .answer k reply now =>
    match s.plans[k]? with
    | some c =>
      match c.stage with
      | .calling name t0 rest => s.answered k c name t0 rest (planOf str reply) now
      | _ => s
    | none => s
  | .cancel k =>
    match s.plans[k]? with
    | some c => if c.underWay then { s with plans := s.plans.set k { c with stage := .cancelled } } else s
    | none => s

end Planners

/-! ## What one step does -/

namespace Planning

variable (p : MultiLLMPlanner) (now : Rat) (task : Task) (lastError : Option String)

/-- The loop passes over the providers whose circuit is open. -/
theorem advance_spec (chain : List ChainEntry) (left : List Provider) :
    ∃ skipped c, Planning.advance p now task lastError chain left = c ∧ c.chain = chain ++ skipped ∧
      (∀ e ∈ skipped, e.asked = false) ∧
      ((∃ name rest, c.stage = .calling name now rest ∧ (p.healthOf name).isHealthy now = true ∧
          left.map (·.name) = skipped.map ChainEntry.provider ++ name :: rest.map (·.name)) ∨
        (c.stage = .returned (emergencyFallback task c.chain lastError) ∧
          left.map (·.name) = skipped.map ChainEntry.provider)) := by
  induction left generalizing chain with
  | nil => exact ⟨[], _, rfl, (List.append_nil chain).symm, List.forall_mem_nil _, .inr ⟨rfl, rfl⟩⟩
  | cons provider left ih =>
    obtain ⟨priority, name⟩ := provider
    unfold advance
    by_cases hhealthy : (p.healthOf name).isHealthy now = true
    · rw [if_pos hhealthy]
      exact ⟨[], _, rfl, (List.append_nil chain).symm, List.forall_mem_nil _, .inl ⟨name, left, rfl, hhealthy, rfl⟩⟩
    · rw [if_neg hhealthy]
      obtain ⟨skipped, c, heq, hchain, hskipped, hend⟩ :=
        ih (chain ++ [.circuitOpen name (p.healthOf name).consecutiveFailures])
      refine ⟨.circuitOpen name (p.healthOf name).consecutiveFailures :: skipped, c, heq, by simp [hchain], ?_, ?_⟩
      · exact List.forall_mem_cons.mpr ⟨rfl, hskipped⟩
      · rcases hend with ⟨called, rest, hstage, hcalled, hleft⟩ | ⟨hstage, hleft⟩
        · exact .inl ⟨called, rest, hstage, hcalled, by simp [hleft, ChainEntry.provider]⟩
        · exact .inr ⟨hstage, by simp [hleft, ChainEntry.provider]⟩

end Planning

namespace MultiLLMPlanner

@[simp] theorem healthOf_setHealth_self (p : MultiLLMPlanner) (name : String) (h : ProviderHealth) :
    (p.setHealth name h).healthOf name = h := by
  simp [healthOf, setHealth]

theorem healthOf_setHealth_of_ne (p : MultiLLMPlanner) {name other : String} (h : ProviderHealth) (hne : other ≠ name) :
    (p.setHealth name h).healthOf other = p.healthOf other := by
  simp [healthOf, setHealth, Dict.get?_set, hne]

theorem registered_concat (rs : List Registration) (r : Registration) :
    registered (rs ++ [r]) = (registered rs).addProvider r.name r.priority r.maxFailures r.cooldown := by
  unfold registered
  rw [List.foldl_append, List.foldl_cons, List.foldl_nil]

theorem sorted_registered (rs : List Registration) :
    (registered rs).providers.Pairwise fun a b => a.priority ≤ b.priority := by
  induction rs using List.reverseRecOn with
  | nil => exact List.Pairwise.nil
  | append_singleton rs r ih =>
    rw [registered_concat]
    have : Std.Total fun a b : Provider => a.priority ≤ b.priority := ⟨fun a b => Int.le_total _ _⟩
    have : IsTrans Provider fun a b => a.priority ≤ b.priority := ⟨fun a b c => Int.le_trans⟩
    exact List.pairwise_insertionSort _ _

/-- Nobody has been asked yet. -/
theorem fresh_registered (rs : List Registration) (name : String) :
    ((registered rs).healthOf name).totalCalls = 0 ∧ ((registered rs).healthOf name).failures = 0 ∧
      ((registered rs).healthOf name).breaker = {} := by
  induction rs using List.reverseRecOn with
  | nil => exact ⟨rfl, rfl, rfl⟩
  | append_singleton rs r ih =>
    rw [registered_concat, healthOf, addProvider]
    by_cases hname : name = r.name
    · subst hname
      rw [Dict.get?_set_self]
      exact ⟨rfl, rfl, rfl⟩
    · rw [Dict.get?_set_of_ne _ _ _ _ hname]
      exact ih

@[simp] theorem providers_setHealth (p : MultiLLMPlanner) (name : String) (h : ProviderHealth) :
    (p.setHealth name h).providers = p.providers := rfl

end MultiLLMPlanner

namespace Planners

variable {str : Value → String} {s s' : Planners} {e : PlanEvent}

/-- All that a step can do to the calls and to the health of the providers. -/
inductive Moves (str : Value → String) (s : Planners) : PlanEvent → Planners → Prop where
  | created (task : Task) (now : Rat) (c : Planning)
    (hc : Planning.advance s.planner now task none [] s.planner.providers = c) :
    Moves str s (.createPlan task now) { s with plans := s.plans ++ [c] }
  | succeeded (k : Nat) (c : Planning) (name : String) (t0 now : Rat) (rest : List Provider)
    (reply : Except PyError (Dict Value)) (plan : Dict Value) (latencyMs : Rat)
    (hk : s.plans[k]? = some c) (hstage : c.stage = .calling name t0 rest) (hplan : planOf str reply = .ok plan) :
    Moves str s (.answer k reply now)
      { planner := s.planner.setHealth name ((s.planner.healthOf name).recordSuccess (now - t0))
        plans := s.plans.set k { c with chain := c.chain ++ [.success name latencyMs]
                                        stage := .returned (Planning.annotated name (c.chain ++ [.success name latencyMs]) plan) } }
  | failed (k : Nat) (c d : Planning) (name error : String) (t0 now : Rat) (rest : List Provider)
    (reply : Except PyError (Dict Value)) (planner : MultiLLMPlanner)
    (hk : s.plans[k]? = some c) (hstage : c.stage = .calling name t0 rest) (herror : planOf str reply = .error error)
    (hplanner : planner = s.planner.setHealth name ((s.planner.healthOf name).recordFailure now))
    (hd : Planning.advance planner now c.task (some error) (c.chain ++ [.failed name error]) rest = d) :
    Moves str s (.answer k reply now) { planner, plans := s.plans.set k d }
  | cancelled (k : Nat) (c : Planning) (hk : s.plans[k]? = some c) (hway : c.underWay = true) :
    Moves str s (.cancel k) { s with plans := s.plans.set k { c with stage := .cancelled } }
  | idle (e : PlanEvent) (k : Nat) (he : (∃ reply now, e = .answer k reply now) ∨ e = .cancel k)
    (hk : ∀ c, s.plans[k]? = some c → c.underWay = false) : Moves str s e s

theorem moves_step (str : Value → String) (s : Planners) (e : PlanEvent) : Moves str s e (s.step str e) := by
  cases e with
  | createPlan task now => exact .created task now _ rfl
  | answer k reply now =>
    cases hk : s.plans[k]? with
    | none =>
      simp only [step, hk]
      exact .idle _ k (.inl ⟨reply, now, rfl⟩) (by simp [hk])
    | some c =>
      cases hstage : c.stage with
      | calling name t0 rest =>
        simp only [step, hk, hstage, answered]
        split
        · next plan hplan => exact .succeeded k c name t0 now rest reply plan _ hk hstage hplan
        · next error herror => exact .failed k c _ name error t0 now rest reply _ hk hstage herror rfl rfl
      | returned plan =>
        simp only [step, hk, hstage]
        exact .idle _ k (.inl ⟨reply, now, rfl⟩) (by simp [hk, Planning.underWay, hstage])
      | cancelled =>
        simp only [step, hk, hstage]
        exact .idle _ k (.inl ⟨reply, now, rfl⟩) (by simp [hk, Planning.underWay, hstage])
  | cancel k =>
    cases hk : s.plans[k]? with
    | none =>
      simp only [step, hk]
      exact .idle _ k (.inr rfl) (by simp [hk])
    | some c =>
      simp only [step, hk]
      by_cases hway : c.underWay = true
      · rw [if_pos hway]
        exact .cancelled k c hk hway
      · rw [if_neg hway]
        exact .idle _ k (.inr rfl) (by simpa [hk] using hway)

/-! ## The health of a provider is the tally of the chains -/

def tally (q : ChainEntry → Bool) (s : Planners) : Nat := (s.plans.map fun c => c.chain.countP q).sum

/-- The provider was asked, and answered or not. -/
def answersOf (name : String) (e : ChainEntry) : Bool := e.asked && e.provider == name

def failuresOf (name : String) (e : ChainEntry) : Bool := e.asked && !e.succeeded && e.provider == name

structure Tallied (s : Planners) (name : String) : Prop where
  totalCalls : (s.planner.healthOf name).totalCalls = s.tally (answersOf name)
  failures : (s.planner.healthOf name).failures = s.tally (failuresOf name)

/-- A count that leaves the entries out that were passed over. -/
theorem countP_advance {p : MultiLLMPlanner} {now : Rat} {task : Task} {lastError : Option String} {q : ChainEntry → Bool}
    (hq : ∀ e, e.asked = false → q e = false) (chain : List ChainEntry) (left : List Provider) :
    (Planning.advance p now task lastError chain left).chain.countP q = chain.countP q := by
  obtain ⟨skipped, c, rfl, hchain, hskipped, -⟩ := Planning.advance_spec p now task lastError chain left
  have hnone : skipped.countP q = 0 := List.countP_eq_zero.mpr fun e he => by simp [hq e (hskipped e he)]
  rw [hchain, List.countP_append, hnone, Nat.add_zero]

/-- A step adds an answer to one chain, and records it, or neither. -/
theorem Moves.recorded (h : Moves str s e s') :
    (s'.planner = s.planner ∧ ∀ q, (∀ e, e.asked = false → q e = false) → tally q s' = tally q s) ∨
    (∃ name latency latencyMs, s'.planner = s.planner.setHealth name ((s.planner.healthOf name).recordSuccess latency) ∧
      ∀ q, tally q s' = tally q s + if q (.success name latencyMs) then 1 else 0) ∨
    ∃ name now error, s'.planner = s.planner.setHealth name ((s.planner.healthOf name).recordFailure now) ∧
      ∀ q, (∀ e, e.asked = false → q e = false) → tally q s' = tally q s + if q (.failed name error) then 1 else 0 := by
  cases h with
  | created task now c hc =>
    refine .inl ⟨rfl, fun q hq => ?_⟩
    simp [tally, ← hc, countP_advance hq]
  | succeeded k c name t0 now rest reply plan latencyMs hk hstage hplan =>
    refine .inr (.inl ⟨name, now - t0, latencyMs, rfl, fun q => ?_⟩)
    have hsum := sum_map_set hk { c with
      chain := c.chain ++ [.success name latencyMs]
      stage := .returned (Planning.annotated name (c.chain ++ [.success name latencyMs]) plan) } fun c => c.chain.countP q
    rw [List.countP_append, List.countP_singleton] at hsum
    simp only [tally]
    omega
  | failed k c d name error t0 now rest reply planner hk hstage herror hplanner hd =>
    refine .inr (.inr ⟨name, now, error, hplanner, fun q hq => ?_⟩)
    have hsum := sum_map_set hk d fun c => c.chain.countP q
    rw [← hd, countP_advance hq, List.countP_append, List.countP_singleton, hd] at hsum
    simp only [tally]
    omega
  | cancelled k c hk hway =>
    refine .inl ⟨rfl, fun q _ => ?_⟩
    have hsum := sum_map_set hk { c with stage := .cancelled } fun c => c.chain.countP q
    dsimp only [tally] at hsum ⊢
    omega
  | idle e k he hk => exact .inl ⟨rfl, fun _ _ => rfl⟩

theorem Tallied.moves {name : String} (h : Tallied s name) (hmoves : Moves str s e s') : Tallied s' name := by
  have hanswers (e : ChainEntry) (he : e.asked = false) : answersOf name e = false := by simp [answersOf, he]
  have hfailures (e : ChainEntry) (he : e.asked = false) : failuresOf name e = false := by simp [failuresOf, he]
  rcases hmoves.recorded with ⟨hplanner, htally⟩ | ⟨other, latency, latencyMs, hplanner, htally⟩ |
      ⟨other, now, error, hplanner, htally⟩
  · constructor
    · rw [hplanner, htally _ hanswers, h.totalCalls]
    · rw [hplanner, htally _ hfailures, h.failures]
  · by_cases hname : name = other
    · subst hname
      constructor
      · rw [hplanner, htally, MultiLLMPlanner.healthOf_setHealth_self, ← h.totalCalls]
        simp [ProviderHealth.recordSuccess, answersOf, ChainEntry.asked, ChainEntry.provider]
      · rw [hplanner, htally, MultiLLMPlanner.healthOf_setHealth_self, ← h.failures]
        simp [ProviderHealth.recordSuccess, failuresOf, ChainEntry.succeeded]
    · have hother : ¬ other = name := Ne.symm hname
      constructor
      · rw [hplanner, htally, MultiLLMPlanner.healthOf_setHealth_of_ne _ _ hname, h.totalCalls]
        simp [answersOf, ChainEntry.provider, hother]
      · rw [hplanner, htally, MultiLLMPlanner.healthOf_setHealth_of_ne _ _ hname, h.failures]
        simp [failuresOf, ChainEntry.provider, hother]
  · by_cases hname : name = other
    · subst hname
      constructor
      · rw [hplanner, htally _ hanswers, MultiLLMPlanner.healthOf_setHealth_self, ← h.totalCalls]
        simp [ProviderHealth.recordFailure, answersOf, ChainEntry.asked, ChainEntry.provider]
      · rw [hplanner, htally _ hfailures, MultiLLMPlanner.healthOf_setHealth_self, ← h.failures]
        simp [ProviderHealth.recordFailure, failuresOf, ChainEntry.asked, ChainEntry.succeeded, ChainEntry.provider]
    · have hother : ¬ other = name := Ne.symm hname
      constructor
      · rw [hplanner, htally _ hanswers, MultiLLMPlanner.healthOf_setHealth_of_ne _ _ hname, h.totalCalls]
        simp [answersOf, ChainEntry.provider, hother]
      · rw [hplanner, htally _ hfailures, MultiLLMPlanner.healthOf_setHealth_of_ne _ _ hname, h.failures]
        simp [failuresOf, ChainEntry.provider, hother]

/-- Of what was asked, no more has failed. -/
theorem tally_failuresOf_le (s : Planners) (name : String) : s.tally (failuresOf name) ≤ s.tally (answersOf name) := by
  unfold tally
  apply List.sum_le_sum
  intro c _
  refine List.countP_mono_left fun e _ he => ?_
  unfold failuresOf at he
  unfold answersOf
  simp only [Bool.and_eq_true] at he ⊢
  exact ⟨he.1.1, he.2⟩

theorem successRate_bounds {h : ProviderHealth} (hle : h.failures ≤ h.totalCalls) :
    0 ≤ h.successRate ∧ h.successRate ≤ 100 := by
  unfold ProviderHealth.successRate
  split
  · norm_num
  · next hcalls =>
    have hpos : (0 : Rat) < h.totalCalls := by exact_mod_cast Nat.pos_of_ne_zero hcalls
    have hfailures : (h.failures : Rat) ≤ h.totalCalls := by exact_mod_cast hle
    constructor
    · have : 0 ≤ ((h.totalCalls : Rat) - h.failures) / h.totalCalls := div_nonneg (by linarith) hpos.le
      linarith
    · have : ((h.totalCalls : Rat) - h.failures) / h.totalCalls ≤ 1 := (div_le_one hpos).mpr (by
        have : (0 : Rat) ≤ h.failures := Nat.cast_nonneg _
        linarith)
      linarith

/-- **The health is the record.** However the calls interleave, a provider's counts are those of the
chains of all calls, and its success rate is a percentage. -/
theorem health_is_tally (registrations : List MultiLLMPlanner.Registration) (events : List PlanEvent) (name : String) :
    let s := run (step str) { planner := .registered registrations } events
    Tallied s name ∧ 0 ≤ (s.planner.healthOf name).successRate ∧ (s.planner.healthOf name).successRate ≤ 100 := by
  intro s
  have hfresh := MultiLLMPlanner.fresh_registered registrations name
  have htallied : Tallied s name :=
    run_invariant (Tallied · name) (fun s e h => h.moves (moves_step str s e)) ⟨hfresh.1, hfresh.2.1⟩ events
  exact ⟨htallied, successRate_bounds (by rw [htallied.failures, htallied.totalCalls]; exact tally_failuresOf_le s name)⟩

/-! ## Whose plan is returned -/

/-- The call has tried the providers in their order, and none before the one that it is at gave a plan. -/
def InOrder (names : List String) (c : Planning) : Prop :=
  match c.stage with
  | .calling name _ rest =>
    c.chain.map ChainEntry.provider ++ name :: rest.map (·.name) = names ∧ ∀ e ∈ c.chain, e.succeeded = false
  | .returned plan =>
    (∃ before name latencyMs after, c.chain = before ++ [.success name latencyMs] ∧ (∀ e ∈ before, e.succeeded = false) ∧
        before.map ChainEntry.provider ++ name :: after = names ∧ plan.get? "_provider" = some (.str name) ∧
        plan.get? "_failover" = some (.bool (!before.isEmpty))) ∨
      (c.chain.map ChainEntry.provider = names ∧ (∀ e ∈ c.chain, e.succeeded = false) ∧
        plan.get? "_provider" = some (.str "none") ∧ plan.get? "_all_providers_exhausted" = some (.bool true))
  | .cancelled => True

theorem get?_annotated (name : String) (chain : List ChainEntry) (plan : Dict Value) :
    (Planning.annotated name chain plan).get? "_provider" = some (.str name) ∧
      (Planning.annotated name chain plan).get? "_failover" = some (.bool (1 < chain.length)) := by
  unfold Planning.annotated
  simp [Dict.get?_set]

theorem inOrder_advance {names : List String} {p : MultiLLMPlanner} {now : Rat} {task : Task} {lastError : Option String}
    {chain : List ChainEntry} {left : List Provider} (hnames : chain.map ChainEntry.provider ++ left.map (·.name) = names)
    (hchain : ∀ e ∈ chain, e.succeeded = false) : InOrder names (Planning.advance p now task lastError chain left) := by
  obtain ⟨skipped, c, heq, hc, hskipped, hend⟩ := Planning.advance_spec p now task lastError chain left
  have hnone : ∀ e ∈ c.chain, e.succeeded = false := by
    rw [hc]
    intro e he
    rcases List.mem_append.mp he with he | he
    · exact hchain e he
    · have hopen := hskipped e he
      cases e with
      | circuitOpen provider n => rfl
      | success provider latencyMs => cases hopen
      | failed provider error => rfl
  rw [heq]
  unfold InOrder
  rcases hend with ⟨name, rest, hstage, -, hleft⟩ | ⟨hstage, hleft⟩
  · rw [hstage]
    exact ⟨by rw [← hnames, hleft, hc, List.map_append, List.append_assoc], hnone⟩
  · rw [hstage]
    exact .inr ⟨by rw [← hnames, hleft, hc, List.map_append], hnone, rfl, rfl⟩

/-- The providers stay, and the calls try them in their order. -/
def AllInOrder (providers : List Provider) (s : Planners) : Prop :=
  s.planner.providers = providers ∧ ∀ c ∈ s.plans, InOrder (providers.map (·.name)) c

theorem AllInOrder.moves {providers : List Provider} (h : AllInOrder providers s) (hmoves : Moves str s e s') :
    AllInOrder providers s' := by
  obtain ⟨hproviders, hplans⟩ := h
  have hset {k : Nat} {c : Planning} (hc : InOrder (providers.map (·.name)) c) :
      ∀ d ∈ s.plans.set k c, InOrder (providers.map (·.name)) d := by
    intro d hd
    rcases List.mem_or_eq_of_mem_set hd with hd | rfl
    · exact hplans d hd
    · exact hc
  cases hmoves with
  | created task now c hc =>
    refine ⟨hproviders, fun d hd => ?_⟩
    rcases List.mem_append.mp hd with hd | hd
    · exact hplans d hd
    · rw [List.mem_singleton.mp hd, ← hc]
      exact inOrder_advance (by rw [hproviders, List.map_nil, List.nil_append]) (List.forall_mem_nil _)
  | succeeded k c name t0 now rest reply plan latencyMs hk hstage hplan =>
    refine ⟨hproviders, hset (.inl ⟨c.chain, name, latencyMs, rest.map (·.name), rfl, ?_⟩)⟩
    have hc := hplans c (List.mem_of_getElem? hk)
    rw [InOrder, hstage] at hc
    obtain ⟨hprovider, hfailover⟩ := get?_annotated name (c.chain ++ [.success name latencyMs]) plan
    refine ⟨hc.2, hc.1, hprovider, hfailover.trans ?_⟩
    cases c.chain with
    | nil => rfl
    | cons e chain => simp
  | failed k c d name error t0 now rest reply planner hk hstage herror hplanner hd =>
    refine ⟨by rw [hplanner]; exact hproviders, hset ?_⟩
    have hc := hplans c (List.mem_of_getElem? hk)
    rw [InOrder, hstage] at hc
    rw [← hd]
    refine inOrder_advance (by simpa [ChainEntry.provider] using hc.1) fun e he => ?_
    rcases List.mem_append.mp he with he | he
    · exact hc.2 e he
    · rw [List.mem_singleton.mp he]
      rfl
  | cancelled k c hk hway => exact ⟨hproviders, hset trivial⟩
  | idle e k he hk => exact ⟨hproviders, hplans⟩

/-- The call awaits the provider, or it is not there. -/
def callsAt (name : String) (s : Planners) (k : Nat) : Bool := (s.plans[k]?.map (·.calls name)).getD false

def underWayAt (s : Planners) (k : Nat) : Bool := (s.plans[k]?.map (·.underWay)).getD false

/-- What the breaker of the provider sees of a step to `s'`. -/
def uses (str : Value → String) (name : String) (s s' : Planners) : PlanEvent → List (BreakerEvent Rat)
  | .createPlan _ now => if s'.callsAt name s.plans.length then [.start now] else []
  | .answer k reply now =>
    (if s.callsAt name k then
      match planOf str reply with
      | .ok _ => [.success, .leave]
      | .error _ => [.failure now]
    else []) ++ if s.underWayAt k && s'.callsAt name k then [.start now] else []
  | .cancel k => if s.callsAt name k then [.leave] else []

def guarded (name : String) (s : Planners) : Breaker.Guarded Rat where
  breaker := (s.planner.healthOf name).breaker
  underWay := s.plans.countP (·.calls name)

/-- No more than `limit` calls are ever under way. -/
def Room (limit : Nat) (s : Planners) : PlanEvent → Prop
  | .createPlan _ _ => s.plans.countP (·.underWay) < limit
  | _ => True

instance (limit : Nat) (s : Planners) (e : PlanEvent) : Decidable (Room limit s e) :=
  match e with
  | .createPlan _ _ => inferInstanceAs (Decidable (s.plans.countP (·.underWay) < limit))
  | .answer _ _ _ => .isTrue trivial
  | .cancel _ => .isTrue trivial

/-- The provider keeps its threshold and cooldown, and the calls have room. -/
structure Guards (threshold : Int) (cooldown : Rat) (limit : Nat) (name : String) (s : Planners) : Prop where
  threshold : (s.planner.healthOf name).maxConsecutiveFailures = threshold
  cooldown : (s.planner.healthOf name).cooldownSeconds = cooldown
  room : s.plans.countP (·.underWay) ≤ limit

variable {threshold : Int} {cooldown : Rat} {limit : Nat} {name : String}

theorem calls_calling {c : Planning} {called : String} {t0 : Rat} {rest : List Provider}
    (h : c.stage = .calling called t0 rest) : c.calls name = decide (called = name) := by
  unfold Planning.calls
  rw [h]

theorem calls_eq_false {c : Planning} (h : c.underWay = false) : c.calls name = false := by
  unfold Planning.underWay at h
  unfold Planning.calls
  cases hstage : c.stage with
  | calling called t0 rest =>
    rw [hstage] at h
    cases h
  | returned plan => rfl
  | cancelled => rfl

theorem underWay_of_calls {c : Planning} (h : c.calls name = true) : c.underWay = true := by
  by_contra hnot
  rw [calls_eq_false (Bool.eq_false_iff.mpr hnot)] at h
  cases h

theorem countP_calls_le (s : Planners) (name : String) : s.plans.countP (·.calls name) ≤ s.plans.countP (·.underWay) :=
  List.countP_mono_left fun _ _ h => underWay_of_calls h

/-- A call that awaits the provider after the loop found its circuit closed. -/
theorem lets_of_calls {p : MultiLLMPlanner} {now : Rat} {task : Task} {lastError : Option String} {chain : List ChainEntry}
    {left : List Provider} (h : (Planning.advance p now task lastError chain left).calls name = true) :
    (p.healthOf name).breaker.Lets (p.healthOf name).maxConsecutiveFailures (p.healthOf name).cooldownSeconds now := by
  obtain ⟨skipped, c, heq, -, -, hend⟩ := Planning.advance_spec p now task lastError chain left
  rw [heq] at h
  rcases hend with ⟨called, rest, hstage, hhealthy, -⟩ | ⟨hstage, -⟩
  · rw [calls_calling hstage] at h
    obtain rfl := of_decide_eq_true h
    exact ProviderHealth.isHealthy_iff.mp hhealthy
  · unfold Planning.calls at h
    rw [hstage] at h
    cases h

theorem guards_setHealth (p : MultiLLMPlanner) (called : String) (hp : ProviderHealth)
    (hthreshold : hp.maxConsecutiveFailures = (p.healthOf called).maxConsecutiveFailures)
    (hcooldown : hp.cooldownSeconds = (p.healthOf called).cooldownSeconds) (name : String) :
    ((p.setHealth called hp).healthOf name).maxConsecutiveFailures = (p.healthOf name).maxConsecutiveFailures ∧
      ((p.setHealth called hp).healthOf name).cooldownSeconds = (p.healthOf name).cooldownSeconds := by
  by_cases hname : name = called
  · subst hname
    rw [MultiLLMPlanner.healthOf_setHealth_self]
    exact ⟨hthreshold, hcooldown⟩
  · rw [MultiLLMPlanner.healthOf_setHealth_of_ne _ _ hname]
    exact ⟨rfl, rfl⟩

section Answered

variable {k : Nat} {c d : Planning} {called : String} {t0 now : Rat} {rest : List Provider} {planner : MultiLLMPlanner}

theorem follows_succeeded {latency : Rat} (hk : s.plans[k]? = some c) (hstage : c.stage = .calling called t0 rest)
    (hd : d.calls name = false) (hplanner : planner = s.planner.setHealth called ((s.planner.healthOf called).recordSuccess latency)) :
    Breaker.Follows threshold cooldown limit (guarded name s) (guarded name { planner, plans := s.plans.set k d })
      (if called = name then [.success, .leave] else []) := by
  have hcount := countP_set_add (fun c => c.calls name) hk (y := d)
  simp only [calls_calling hstage, hd] at hcount
  by_cases hname : called = name
  · subst hname
    rw [if_pos rfl]
    rw [decide_eq_true rfl, if_pos rfl, if_neg Bool.false_ne_true] at hcount
    constructor
    · simp [guarded, Breaker.step, hplanner, ProviderHealth.recordSuccess, ProviderHealth.breaker, Breaker.recordSuccess]
      omega
    · refine ⟨trivial, ?_, trivial⟩
      have : 0 < s.plans.countP (·.calls called) := by omega
      exact this
  · simp [hname] at hcount
    simp [Breaker.Follows, hname, guarded, Admitted, hplanner, MultiLLMPlanner.healthOf_setHealth_of_ne _ _ (Ne.symm hname), hcount]

theorem follows_failed {task : Task} {lastError : Option String} {chain : List ChainEntry}
    (h : Guards threshold cooldown limit name s) (hk : s.plans[k]? = some c) (hstage : c.stage = .calling called t0 rest)
    (hplanner : planner = s.planner.setHealth called ((s.planner.healthOf called).recordFailure now))
    (hd : Planning.advance planner now task lastError chain rest = d) :
    Breaker.Follows threshold cooldown limit (guarded name s) (guarded name { planner, plans := s.plans.set k d })
      ((if called = name then [.failure now] else []) ++ if d.calls name then [.start now] else []) := by
  have hcount := countP_set_add (fun c => c.calls name) hk (y := d)
  have hway := countP_set_add (fun c => c.underWay) hk (y := d)
  have hunderWay : c.underWay = true := by rw [Planning.underWay, hstage]
  have hroom : (guarded name { planner, plans := s.plans.set k d }).underWay ≤ limit := by
    have hle := countP_calls_le { s with plans := s.plans.set k d } name
    have hlimit := h.room
    rw [hunderWay, if_pos rfl] at hway
    simp only [guarded] at hle ⊢
    split at hway <;> omega
  have hlets (hcall : d.calls name = true) : (planner.healthOf name).breaker.Lets threshold cooldown now := by
    have hparts := guards_setHealth s.planner called ((s.planner.healthOf called).recordFailure now) rfl rfl name
    have hlets := lets_of_calls (hd ▸ hcall)
    rwa [hplanner, hparts.1, hparts.2, h.threshold, h.cooldown, ← hplanner] at hlets
  simp only [calls_calling hstage] at hcount
  by_cases hname : called = name
  · subst hname
    rw [if_pos rfl]
    rw [decide_eq_true rfl, if_pos rfl] at hcount
    have hsome : 0 < s.plans.countP (·.calls called) :=
      List.countP_pos_iff.mpr ⟨c, List.mem_of_getElem? hk, by rw [calls_calling hstage, decide_eq_true rfl]⟩
    have hstart : Breaker.Follows threshold cooldown limit (Breaker.step (guarded called s) (.failure now)) _ _ :=
      Breaker.follows_start ?_ ?_ hroom hlets
    · exact ⟨hstart.1, hsome, hstart.2⟩
    · simp [guarded, Breaker.step, hplanner, ProviderHealth.recordFailure, ProviderHealth.breaker, Breaker.recordFailure]
    · simp only [guarded, Breaker.step]
      omega
  · rw [if_neg hname, List.nil_append]
    rw [decide_eq_false hname, if_neg Bool.false_ne_true] at hcount
    refine Breaker.follows_start ?_ hcount.symm hroom hlets
    simp [guarded, hplanner, MultiLLMPlanner.healthOf_setHealth_of_ne _ _ (Ne.symm hname)]

end Answered

theorem callsAt_of_get {k : Nat} {c : Planning} (hk : s.plans[k]? = some c) (name : String) : s.callsAt name k = c.calls name := by
  simp [callsAt, hk]

theorem Guards.moves (h : Guards threshold cooldown limit name s) (hmoves : Moves str s e s') (hroom : Room limit s e) :
    Guards threshold cooldown limit name s' ∧
      Breaker.Follows threshold cooldown limit (guarded name s) (guarded name s') (uses str name s s' e) := by
  have hlimit := h.room
  cases hmoves with
  | created task now c hc =>
    have hfew : s.plans.countP (·.underWay) < limit := hroom
    have hroom' : (s.plans ++ [c]).countP (·.underWay) ≤ limit := by
      rw [List.countP_append, List.countP_singleton]
      split <;> omega
    refine ⟨⟨h.threshold, h.cooldown, hroom'⟩, ?_⟩
    rw [uses, callsAt_of_get List.getElem?_concat_length]
    refine Breaker.follows_start rfl ?_ ((countP_calls_le { s with plans := s.plans ++ [c] } name).trans hroom') fun hcall => ?_
    · simp [guarded, List.countP_append, List.countP_singleton]
    · have hlets := lets_of_calls (hc ▸ hcall)
      rwa [h.threshold, h.cooldown] at hlets
  | succeeded k c called t0 now rest reply plan latencyMs hk hstage hplan =>
    obtain ⟨d, hd⟩ : ∃ d : Planning, d = { c with
      chain := c.chain ++ [ChainEntry.success called latencyMs]
      stage := .returned (Planning.annotated called (c.chain ++ [ChainEntry.success called latencyMs]) plan) } := ⟨_, rfl⟩
    rw [← hd]
    have hover : d.underWay = false := by rw [hd]; rfl
    have hplace : (s.plans.set k d)[k]? = some d := List.getElem?_set_self (List.getElem?_eq_some_iff.mp hk).1
    have hway := countP_set_add (fun c => c.underWay) hk (y := d)
    obtain ⟨hthreshold, hcooldown⟩ := guards_setHealth s.planner called
      ((s.planner.healthOf called).recordSuccess (now - t0)) rfl rfl name
    refine ⟨⟨hthreshold.trans h.threshold, hcooldown.trans h.cooldown, ?_⟩, ?_⟩
    · rw [hover, if_neg Bool.false_ne_true] at hway
      dsimp only
      omega
    · rw [uses, callsAt_of_get hk, calls_calling hstage, hplan, callsAt_of_get hplace, calls_eq_false hover]
      simpa using follows_succeeded hk hstage (calls_eq_false hover) rfl
  | failed k c d called error t0 now rest reply planner hk hstage herror hplanner hd =>
    have hunderWay : c.underWay = true := by rw [Planning.underWay, hstage]
    have hplace : (s.plans.set k d)[k]? = some d := List.getElem?_set_self (List.getElem?_eq_some_iff.mp hk).1
    have hway := countP_set_add (fun c => c.underWay) hk (y := d)
    obtain ⟨hthreshold, hcooldown⟩ := guards_setHealth s.planner called
      ((s.planner.healthOf called).recordFailure now) rfl rfl name
    refine ⟨⟨?_, ?_, ?_⟩, ?_⟩
    · rw [hplanner, hthreshold, h.threshold]
    · rw [hplanner, hcooldown, h.cooldown]
    · rw [hunderWay, if_pos rfl] at hway
      dsimp only
      split at hway <;> omega
    · rw [uses, callsAt_of_get hk, calls_calling hstage, herror, callsAt_of_get hplace]
      simpa [underWayAt, hk, hunderWay] using follows_failed h hk hstage hplanner hd
  | cancelled k c hk hunderWay =>
    obtain ⟨d, hd⟩ : ∃ d : Planning, d = { c with stage := .cancelled } := ⟨_, rfl⟩
    rw [← hd]
    have hover : d.underWay = false := by rw [hd]; rfl
    have hway := countP_set_add (fun c => c.underWay) hk (y := d)
    have hcount := countP_set_add (fun c => c.calls name) hk (y := d)
    refine ⟨⟨h.threshold, h.cooldown, ?_⟩, ?_⟩
    · rw [hover, if_neg Bool.false_ne_true] at hway
      dsimp only
      omega
    · rw [uses, callsAt_of_get hk]
      simp only [calls_eq_false hover] at hcount
      by_cases hcall : c.calls name = true
      · rw [if_pos hcall, if_neg Bool.false_ne_true] at hcount
        rw [if_pos hcall]
        have hsome : 0 < s.plans.countP (·.calls name) := by omega
        refine ⟨?_, hsome, trivial⟩
        simp [guarded, Breaker.step]
        omega
      · rw [if_neg hcall, if_neg Bool.false_ne_true] at hcount
        rw [if_neg hcall]
        refine ⟨?_, trivial⟩
        simp [guarded]
        omega
  | idle e k he hk =>
    refine ⟨h, ?_⟩
    have hnone : s.callsAt name k = false ∧ s.underWayAt k = false := by
      unfold callsAt underWayAt
      cases hplace : s.plans[k]? with
      | none => exact ⟨rfl, rfl⟩
      | some c => exact ⟨calls_eq_false (hk c hplace), hk c hplace⟩
    have huses : uses str name s s e = [] := by
      rcases he with ⟨reply, now, rfl⟩ | rfl
      · simp [uses, hnone]
      · simp [uses, hnone]
    rw [huses]
    exact ⟨rfl, trivial⟩

end Planners

def PlanEvent.time? : PlanEvent → Option Rat
  | .createPlan _ now => some now
  | .answer _ _ now => some now
  | .cancel _ => none

def PlanEvent.cancels : PlanEvent → Bool
  | .cancel _ => true
  | _ => false

namespace Planners

/-- How often the provider is called in the run. -/
def callsOf (str : Value → String) (name : String) (s : Planners) (events : List PlanEvent) : Nat :=
  Breaker.starts (Breaker.trace (step str) (fun s e => uses str name s (s.step str e) e) s events)

/-- The step happens before the cooldown is over, counted from `opening`, and the provider gives no plan in it. -/
def FailsIn (str : Value → String) (name : String) (opening cooldown : Rat) (s : Planners) (e : PlanEvent) : Prop :=
  (∀ now ∈ e.time?, opening ≤ now ∧ now < opening + cooldown) ∧ BreakerEvent.success ∉ uses str name s (s.step str e) e

instance (str : Value → String) (name : String) (opening cooldown : Rat) (s : Planners) (e : PlanEvent) :
    Decidable (FailsIn str name opening cooldown s e) :=
  inferInstanceAs (Decidable (_ ∧ _))

variable {opening : Rat}

/-- What the breaker sees of a step that gives no plan: it is in time, and only a cancelled call leaves. -/
theorem uses_within (htime : ∀ now ∈ e.time?, opening ≤ now ∧ now < opening + cooldown)
    (hnone : BreakerEvent.success ∉ uses str name s s' e) :
    (∀ u ∈ uses str name s s' e, Breaker.Within cooldown opening u) ∧
      Breaker.leaves (uses str name s s' e) ≤ if e.cancels then 1 else 0 := by
  cases e with
  | createPlan task now =>
    obtain ⟨hopen, hclose⟩ := htime now rfl
    rw [uses]
    cases s'.callsAt name s.plans.length <;> simp [Breaker.Within, Breaker.leaves, hclose]
  | answer k reply now =>
    obtain ⟨hopen, hclose⟩ := htime now rfl
    rw [uses] at hnone ⊢
    have hstart : ∀ b : Bool, (∀ u ∈ if b = true then [BreakerEvent.start now] else [], Breaker.Within cooldown opening u) ∧
        Breaker.leaves (if b = true then [BreakerEvent.start now] else []) = 0 := by
      intro b
      cases b <;> simp [Breaker.Within, Breaker.leaves, hclose]
    obtain ⟨hwithin, hleaves⟩ := hstart (s.underWayAt k && s'.callsAt name k)
    cases hcalls : s.callsAt name k with
    | false => exact ⟨hwithin, Nat.le_of_eq hleaves⟩
    | true =>
      rw [hcalls, if_pos rfl] at hnone
      cases hreply : planOf str reply with
      | ok plan => simp [hreply] at hnone
      | error error =>
        refine ⟨List.forall_mem_cons.mpr ⟨hopen, hwithin⟩, ?_⟩
        have hcons : Breaker.leaves ([BreakerEvent.failure now] ++
            if (s.underWayAt k && s'.callsAt name k) = true then [BreakerEvent.start now] else []) = 0 := by
          simpa [Breaker.leaves] using hleaves
        exact Nat.le_of_eq hcons
  | cancel k =>
    rw [uses]
    cases s.callsAt name k <;> simp [Breaker.Within, Breaker.leaves, PlanEvent.cancels]

/-- **A failing provider is left alone.** Take any part of a run that is over before the provider's
cooldown is, and in which it gives no plan. It is called no more often in it than its threshold less one
and the calls that may be under way allow, but for those that are cancelled. -/
theorem calls_bounded (registrations : List MultiLLMPlanner.Registration) (limit : Nat) (before window : List PlanEvent)
    (name : String) (opening : Rat)
    (hroom : Admitted (step str) (Room limit) { planner := .registered registrations } (before ++ window))
    (hfails : Admitted (step str) (FailsIn str name opening ((MultiLLMPlanner.registered registrations).healthOf name).cooldownSeconds)
      (run (step str) { planner := .registered registrations } before) window) :
    callsOf str name (run (step str) { planner := .registered registrations } before) window ≤
      (((MultiLLMPlanner.registered registrations).healthOf name).maxConsecutiveFailures - 1).toNat + limit +
        window.countP PlanEvent.cancels := by
  obtain ⟨hbefore, hwindow⟩ := Lib.admitted_append.mp hroom
  obtain ⟨threshold, hthreshold⟩ : ∃ t, t = ((MultiLLMPlanner.registered registrations).healthOf name).maxConsecutiveFailures :=
    ⟨_, rfl⟩
  obtain ⟨cooldown, hcooldown⟩ : ∃ t, t = ((MultiLLMPlanner.registered registrations).healthOf name).cooldownSeconds := ⟨_, rfl⟩
  rw [← hthreshold]
  rw [← hcooldown] at hfails
  have hstep (s : Planners) (e : PlanEvent) (hs : Guards threshold cooldown limit name s) (he : Room limit s e) :=
    hs.moves (moves_step str s e) he
  have hstart : Guards threshold cooldown limit name { planner := .registered registrations } :=
    ⟨hthreshold.symm, hcooldown.symm, Nat.zero_le _⟩
  have hafter := (Breaker.follows_run (guarded name) _ hstep hstart hbefore).1
  have hfollows := (Breaker.follows_run (guarded name) _ hstep hafter hwindow).2
  have huses (s : Planners) (e : PlanEvent) (h : FailsIn str name opening cooldown s e) := uses_within h.1 h.2
  obtain ⟨hwithin, hleaves⟩ := Breaker.trace_within huses hfails
  have := Breaker.starts_le hfollows.2 hwithin
  unfold callsOf
  omega

/-- A provider that raises is called three times in five minutes, by one call after another. -/
def failing : List PlanEvent :=
  let task : Task := { id := "t", name := "n", description := "d", agentType := "general" }
  [.createPlan task 0, .answer 0 (.error (.valueError "down")) 1, .createPlan task 2,
    .answer 1 (.error (.valueError "down")) 3, .createPlan task 4, .answer 2 (.error (.valueError "down")) 5, .createPlan task 6]

theorem calls_bounded_failing :
    callsOf (fun _ => "") "echo" { planner := .registered [{ name := "echo", priority := 99 }] } failing ≤ 3 := by
  have h := @calls_bounded (fun _ => "") [{ name := "echo", priority := 99 }] 1 [] failing "echo" 0
    (by decide +kernel) (by decide +kernel)
  exact h

end Planners

end Occp.Adapters
