import Mathlib.Algebra.BigOperators.Group.List.Basic
import Occp.Lib.LostUpdate
import Occp.Policy.Budget

/-!
# Processes that share a task's record in Redis

`record_spend` reads the record, adds its call and writes it back, under a lock that only
the threads of its own process share.
-/

namespace Occp.Policy

open Lib (Access Pending Shared roundTo)

/-! ## The processes -/

/-- A call whose model has a price. Any other raises before it touches the backend. -/
structure PricedCall where
  canonical : String
  usage : CacheBreakdown
  cost : Rat
  priced : priceCall canonical usage = .ok cost

structure Processes where
  redis : Redis
  policies : Nat → BudgetPolicy
  /-- The calls inside the lock of their process, with what they read. -/
  holding : List (Pending Nat PricedCall BudgetSpend) := []
  done : List PricedCall := []

namespace Processes

/-- What a call makes of the record. -/
def addCall (call : PricedCall) (spend : BudgetSpend) : BudgetSpend := spend.add call.canonical call.cost call.usage

/-- One backend call of a `record_spend` on the task. A process does one after the other. -/
def step (taskId : String) (s : Processes) : Access Nat PricedCall → Processes
  | .read process call =>
    match s.holding.find? fun h => h.who = process with
    | some _ => s
    | none =>
      let (spend, _) := (s.policies process).safeGet s.redis false taskId
      { s with holding := ⟨process, call, spend, s.done.length⟩ :: s.holding }
  | .write process =>
    match s.holding.find? fun h => h.who = process with
    | none => s
    | some h =>
      let (policy, redis) := (s.policies process).safeSet s.redis false (addCall h.call h.seen)
      { redis, policies := Function.update s.policies process policy
        holding := s.holding.filter fun h => h.who ≠ process, done := s.done ++ [h.call] }

/-- No process reads while another is between its read and its write. -/
def Alone (s : Processes) : Access Nat PricedCall → Prop
  | .read process _ => ∀ h ∈ s.holding, h.who = process
  | .write _ => True

instance (s : Processes) (e : Access Nat PricedCall) : Decidable (s.Alone e) :=
  match e with
  | .read process _ => inferInstanceAs (Decidable (∀ h ∈ s.holding, h.who = process))
  | .write _ => inferInstanceAs (Decidable True)

variable {taskId : String}

/-- A process that is left alone does what `record_spend` does. -/
theorem read_write_eq_recordCost (s : Processes) (process : Nat) (call : PricedCall)
    (hidle : s.holding.find? (fun h => h.who = process) = none) :
    (step taskId (step taskId s (.read process call)) (.write process)).redis =
      ((s.policies process).recordCost s.redis false false taskId call.canonical call.cost call.usage).2.2 := by
  have hread : step taskId s (.read process call) = { s with
      holding := ⟨process, call, (s.policies process).stored s.redis taskId, s.done.length⟩ :: s.holding } := by
    unfold step
    dsimp only
    rw [hidle, BudgetPolicy.safeGet_answers]
  rw [hread]
  unfold step BudgetPolicy.recordCost
  simp only [List.find?_cons, decide_true, BudgetPolicy.safeGet_answers]
  rfl

/-! ## The shared record -/

/-- What the processes share, and where they are. -/
def shared (taskId : String) (s : Processes) : Shared Nat PricedCall BudgetSpend :=
  ⟨s.redis.get taskId, s.holding, s.done⟩

/-- Every process uses Redis, and every record of the task says so. -/
structure OnRedis (taskId : String) (s : Processes) : Prop where
  backends : ∀ process, (s.policies process).backend = .redis
  stored : (s.redis.get taskId).taskId = taskId
  seen : ∀ h ∈ s.holding, h.seen.taskId = taskId

theorem stored_of_redis {p : BudgetPolicy} (h : p.backend = .redis) (r : Redis) : p.stored r taskId = r.get taskId := by
  unfold BudgetPolicy.stored BudgetPolicy.safeGet
  rw [h]
  rfl

theorem safeSet_of_redis {p : BudgetPolicy} (h : p.backend = .redis) (r : Redis) (spend : BudgetSpend) :
    p.safeSet r false spend = (p, r.set spend) := by
  unfold BudgetPolicy.safeSet
  rw [h]
  rfl

/-- One backend call is one access to the shared record. -/
theorem shared_step {s : Processes} (h : OnRedis taskId s) (e : Access Nat PricedCall) :
    OnRedis taskId (step taskId s e) ∧ shared taskId (step taskId s e) = Shared.step addCall (shared taskId s) e := by
  cases e with
  | read process call =>
    unfold step Shared.step Shared.pendingOf shared
    dsimp only
    split
    · next heq =>
      rw [heq]
      exact ⟨h, rfl⟩
    · next heq =>
      rw [heq, BudgetPolicy.safeGet_answers, stored_of_redis (h.backends process)]
      refine ⟨⟨h.backends, h.stored, ?_⟩, rfl⟩
      rintro p (_ | ⟨_, hp⟩)
      · exact h.stored
      · exact h.seen p hp
  | write process =>
    unfold step Shared.step Shared.pendingOf shared
    dsimp only
    split
    · next heq =>
      rw [heq]
      exact ⟨h, rfl⟩
    · next p heq =>
      have hid : (addCall p.call p.seen).taskId = taskId := h.seen p (List.mem_of_find?_eq_some heq)
      have hwritten : (s.redis.set (addCall p.call p.seen)).get taskId = addCall p.call p.seen := by
        have hget := Redis.get_set_decimal s.redis (addCall p.call p.seen) (Lib.isDecimal_roundTo 6 _)
        rwa [hid] at hget
      rw [heq, safeSet_of_redis (h.backends process), Function.update_eq_self]
      refine ⟨⟨h.backends, ?_, fun q hq => h.seen q (List.mem_filter.mp hq).1⟩, ?_⟩
      · exact (congrArg BudgetSpend.taskId hwritten).trans hid
      · dsimp only
        rw [hwritten]

theorem shared_run {s : Processes} (h : OnRedis taskId s) (events : List (Access Nat PricedCall)) :
    shared taskId (Lib.run (step taskId) s events) = Lib.run (Shared.step addCall) (shared taskId s) events ∧
      (Lib.Admitted (step taskId) Alone s events ↔
        Lib.Admitted (Shared.step addCall) Shared.Alone (shared taskId s) events) := by
  induction events generalizing s with
  | nil => exact ⟨rfl, Iff.rfl⟩
  | cons e events ih =>
    obtain ⟨hnext, hstep⟩ := shared_step h e
    obtain ⟨hrun, hadmitted⟩ := ih hnext
    have halone : s.Alone e ↔ (shared taskId s).Alone e := by cases e <;> exact Iff.rfl
    refine ⟨?_, ?_⟩
    · rw [Lib.run_cons, Lib.run_cons, hrun, hstep]
    · rw [Lib.Admitted, Lib.Admitted, halone, hadmitted, hstep]

/-! ## Sums -/

/-- Each call is off by half a micro-dollar at most. -/
theorem abs_spent_foldl_le (calls : List PricedCall) (spend : BudgetSpend) :
    |(calls.foldl (fun s c => addCall c s) spend).spentUsd - (spend.spentUsd + (calls.map (·.cost)).sum)| ≤
      calls.length * (1 / 2 / 10 ^ 6) := by
  induction calls generalizing spend with
  | nil => simp
  | cons call calls ih =>
    have hrest := abs_le.mp (ih (addCall call spend))
    have hcall := abs_le.mp (Lib.abs_roundTo_sub_le 6 (spend.spentUsd + call.cost))
    have hspent : (addCall call spend).spentUsd = roundTo 6 (spend.spentUsd + call.cost) := rfl
    rw [hspent] at hrest
    rw [List.foldl_cons, List.map_cons, List.sum_cons, List.length_cons, abs_le]
    push_cast
    constructor <;> linarith [hrest.1, hrest.2, hcall.1, hcall.2]

/-- **No update is lost exactly when no process reads between another's read and write.** -/
theorem no_update_lost_iff (taskId : String) (redis : Redis) (policies : Nat → BudgetPolicy)
    (hredis : ∀ process, (policies process).backend = .redis) (hrecord : (redis.get taskId).taskId = taskId)
    (events : List (Access Nat PricedCall))
    (hover : (Lib.run (step taskId) { redis, policies } events).holding = []) :
    let after := Lib.run (step taskId) { redis, policies } events
    (|(after.redis.get taskId).spentUsd - ((redis.get taskId).spentUsd + (after.done.map (·.cost)).sum)| ≤
        after.done.length * (1 / 2 / 10 ^ 6) ∧
      (after.redis.get taskId).calls = (redis.get taskId).calls + after.done.length) ↔
    Lib.Admitted (step taskId) Alone { redis, policies } events := by
  intro after
  have hstart : OnRedis taskId { redis, policies } :=
    ⟨hredis, hrecord, fun h hh => absurd hh List.not_mem_nil⟩
  obtain ⟨hrun, hadmitted⟩ := shared_run hstart events
  have hinit : shared taskId { redis, policies } = ⟨redis.get taskId, [], []⟩ := rfl
  rw [hinit] at hrun hadmitted
  have hstored : after.redis.get taskId = _ := congrArg Shared.stored hrun
  have hdone : after.done = _ := congrArg Shared.done hrun
  have hpending : _ = [] := (congrArg Shared.pending hrun).symm.trans hover
  have hcalls (call : PricedCall) (spend : BudgetSpend) : (addCall call spend).calls = spend.calls + 1 := rfl
  have hcount := Shared.size_eq_iff_alone hcalls (redis.get taskId) events hpending
  rw [hadmitted, hstored, hdone, ← hcount]
  refine ⟨And.right, fun hlen => ⟨?_, hlen⟩⟩
  have hfold := Shared.stored_of_alone (redis.get taskId) events (hcount.mp hlen)
  dsimp only at hfold
  rw [hfold]
  exact abs_spent_foldl_le _ (redis.get taskId)

/-- A million input tokens, for one dollar. -/
def dollarCall : PricedCall where
  canonical := "claude-haiku-4-5"
  usage := { inputTokens := 1000000 }
  cost := 1
  priced := by decide +kernel

def onRedis : Nat → BudgetPolicy := fun _ => { defaultBudget := 5, backend := .redis }

/-- Two processes that record one after the other. -/
theorem processes_in_turn_add_up :
    let after := Lib.run (step "t") { redis := { text := fun _ => "" }, policies := onRedis }
      [.read 0 dollarCall, .write 0, .read 1 dollarCall, .write 1]
    |(after.redis.get "t").spentUsd - (0 + (after.done.map (·.cost)).sum)| ≤ after.done.length * (1 / 2 / 10 ^ 6) ∧
      (after.redis.get "t").calls = 0 + after.done.length :=
  (no_update_lost_iff "t" { text := fun _ => "" } onRedis (fun _ => rfl) rfl
    [.read 0 dollarCall, .write 0, .read 1 dollarCall, .write 1] (by decide +kernel)).mpr (by decide +kernel)

/-- Both read before either writes: two calls, and one of them is on record. -/
theorem processes_at_once_lose_a_call :
    let after := Lib.run (step "t") { redis := { text := fun _ => "" }, policies := onRedis }
      [.read 0 dollarCall, .read 1 dollarCall, .write 0, .write 1]
    after.holding = [] ∧ after.done.length = 2 ∧ (after.done.map (·.cost)).sum = 2 ∧
      (after.redis.get "t").calls = 1 ∧ (after.redis.get "t").spentUsd = 1 := by
  refine ⟨by decide +kernel, by decide +kernel, by decide +kernel, by decide +kernel, by decide +kernel⟩

end Processes

end Occp.Policy
