import Mathlib.Algebra.Order.Group.Unbundled.Basic
import Mathlib.Algebra.Order.Monoid.Defs
import Occp.Lib.Runs

/-!
# Circuit breakers

A breaker counts the failures in a row and keeps the time of the last. It lets a call start while
they are fewer than a threshold, and again once a cooldown has passed since the last of them.
-/

namespace Occp.Lib

structure Breaker (τ : Type) where
  failures : Nat := 0
  lastFailure : Option τ := none

/-- What a breaker sees of the calls. A call that has said how it went leaves as well. -/
inductive BreakerEvent (τ : Type) where
  | start (now : τ)
  | success
  | failure (now : τ)
  | leave
  deriving DecidableEq

namespace Breaker

variable {τ : Type}

def recordSuccess (b : Breaker τ) : Breaker τ := { b with failures := 0 }

def recordFailure (b : Breaker τ) (now : τ) : Breaker τ := { failures := b.failures + 1, lastFailure := some now }

/-- A breaker, and how many of the calls that it let start are under way. -/
structure Guarded (τ : Type) where
  breaker : Breaker τ := {}
  underWay : Nat := 0

def step (g : Guarded τ) : BreakerEvent τ → Guarded τ
  | .start _ => { g with underWay := g.underWay + 1 }
  | .success => { g with breaker := g.breaker.recordSuccess }
  | .failure now => { breaker := g.breaker.recordFailure now, underWay := g.underWay - 1 }
  | .leave => { g with underWay := g.underWay - 1 }

def starts (events : List (BreakerEvent τ)) : Nat := events.countP fun | .start _ => true | _ => false

def leaves (events : List (BreakerEvent τ)) : Nat := events.countP fun | .leave => true | _ => false

variable [AddCommGroup τ] [LinearOrder τ]

def Lets (threshold : Int) (cooldown : τ) (b : Breaker τ) (now : τ) : Prop :=
  b.failures < threshold ∨ ∀ t, b.lastFailure = some t → cooldown ≤ now - t

/-- The breaker lets the call start, no more than `calls` are ever under way, and only such a call ends. -/
def Ok (threshold : Int) (cooldown : τ) (calls : Nat) (g : Guarded τ) : BreakerEvent τ → Prop
  | .start now => g.breaker.Lets threshold cooldown now ∧ g.underWay < calls
  | .success => True
  | .failure _ => 0 < g.underWay
  | .leave => 0 < g.underWay

/-- It happens before the cooldown is over, counted from `opening`, and is no success. -/
def Within (cooldown opening : τ) : BreakerEvent τ → Prop
  | .start now => now < opening + cooldown
  | .success => False
  | .failure now => opening ≤ now
  | .leave => True

/-- How a window stands: `started` calls began in it, `failed` and `left` ended, and `before` were under
way when it opened. -/
structure Tally (threshold : Int) (opening : τ) (calls before : Nat) (g : Guarded τ) (started failed left : Nat) : Prop where
  count : started + before = failed + left + g.underWay
  inRow : failed ≤ g.breaker.failures
  recent : 0 < failed → ∃ t, g.breaker.lastFailure = some t ∧ opening ≤ t
  bound : started ≤ (threshold - 1).toNat + calls + left

variable {threshold : Int} {cooldown opening : τ} {calls before : Nat} {g : Guarded τ}

/-- The breaker goes from one state to the other by what it sees. -/
def Follows (threshold : Int) (cooldown : τ) (calls : Nat) (g g' : Guarded τ) (seen : List (BreakerEvent τ)) : Prop :=
  g' = run step g seen ∧ Admitted step (Ok threshold cooldown calls) g seen

/-- Perhaps a call starts. -/
theorem follows_start {g g' : Guarded τ} {call : Bool} {now : τ} (hbreaker : g.breaker = g'.breaker)
    (hcount : g.underWay + (if call then 1 else 0) = g'.underWay) (hroom : g'.underWay ≤ calls)
    (hlets : call = true → g'.breaker.Lets threshold cooldown now) :
    Follows threshold cooldown calls g g' (if call then [.start now] else []) := by
  obtain ⟨breaker, underWay⟩ := g
  obtain ⟨breaker', underWay'⟩ := g'
  obtain rfl : breaker = breaker' := hbreaker
  cases call with
  | true =>
    obtain rfl : underWay + 1 = underWay' := hcount
    exact ⟨rfl, ⟨hlets rfl, hroom⟩, trivial⟩
  | false =>
    obtain rfl : underWay = underWay' := hcount
    exact ⟨rfl, trivial⟩

theorem Follows.trans {g g' g'' : Guarded τ} {seen seen' : List (BreakerEvent τ)}
    (h : Follows threshold cooldown calls g g' seen) (h' : Follows threshold cooldown calls g' g'' seen') :
    Follows threshold cooldown calls g g'' (seen ++ seen') := by
  obtain ⟨rfl, hadmitted⟩ := h
  obtain ⟨rfl, hadmitted'⟩ := h'
  exact ⟨(run_append _ _ _ _).symm, admitted_append.mpr ⟨hadmitted, hadmitted'⟩⟩

section Trace

variable {σ ε : Type} {stepOf : σ → ε → σ} {ok : σ → ε → Prop} {uses : σ → ε → List (BreakerEvent τ)}

/-- What the breaker sees of a run of the system that it stands in. -/
def trace (stepOf : σ → ε → σ) (uses : σ → ε → List (BreakerEvent τ)) : σ → List ε → List (BreakerEvent τ)
  | _, [] => []
  | s, e :: events => uses s e ++ trace stepOf uses (stepOf s e) events

/-- Where the breaker follows each step of a system, it goes through a run of its own. -/
theorem follows_run (view : σ → Guarded τ) (inv : σ → Prop)
    (hstep : ∀ s e, inv s → ok s e → inv (stepOf s e) ∧
      Follows threshold cooldown calls (view s) (view (stepOf s e)) (uses s e)) {s : σ} {events : List ε} (hs : inv s)
    (hok : Admitted stepOf ok s events) :
    inv (run stepOf s events) ∧
      Follows threshold cooldown calls (view s) (view (run stepOf s events)) (trace stepOf uses s events) := by
  induction events generalizing s with
  | nil => exact ⟨hs, rfl, trivial⟩
  | cons e events ih =>
    obtain ⟨hinv, hfollows⟩ := hstep s e hs hok.1
    obtain ⟨hinv', hfollows'⟩ := ih hinv hok.2
    exact ⟨hinv', hfollows.trans hfollows'⟩

/-- What the breaker sees of a run is within the window, and the calls that leave are counted, if that
is so of each step. -/
theorem trace_within {inside : σ → ε → Prop} {leaving : ε → Bool}
    (huses : ∀ s e, inside s e → (∀ u ∈ uses s e, Within cooldown opening u) ∧ leaves (uses s e) ≤ if leaving e then 1 else 0)
    {s : σ} {events : List ε} (hinside : Admitted stepOf inside s events) :
    (∀ u ∈ trace stepOf uses s events, Within cooldown opening u) ∧
      leaves (trace stepOf uses s events) ≤ events.countP leaving := by
  induction events generalizing s with
  | nil => exact ⟨List.forall_mem_nil _, Nat.zero_le _⟩
  | cons e events ih =>
    obtain ⟨hfirst, hleave⟩ := huses s e hinside.1
    obtain ⟨hlater, hleaves⟩ := ih hinside.2
    constructor
    · intro u hu
      rcases List.mem_append.mp hu with hu | hu
      · exact hfirst u hu
      · exact hlater u hu
    · rw [List.countP_cons]
      unfold leaves at hleave hleaves ⊢
      rw [trace, List.countP_append]
      omega

end Trace

omit [AddCommGroup τ] in
theorem tally_open (calls : Nat) (g : Guarded τ) : Tally threshold opening calls g.underWay g 0 0 0 where
  count := by omega
  inRow := Nat.zero_le _
  recent := fun h => absurd h (Nat.lt_irrefl 0)
  bound := Nat.zero_le _

variable [IsOrderedAddMonoid τ] {started failed left : Nat}

/-- What lets a call start in the window is that too few have failed in it, or none has. -/
theorem Tally.failed_of_lets (h : Tally threshold opening calls before g started failed left) {now : τ}
    (hlets : g.breaker.Lets threshold cooldown now) (hnow : now < opening + cooldown) :
    failed ≤ (threshold - 1).toNat := by
  by_cases hfailed : 0 < failed
  · obtain ⟨t, hlast, ht⟩ := h.recent hfailed
    rcases hlets with hfew | hcool
    · have := h.inRow
      omega
    · have hlate : opening + cooldown ≤ now := by
        calc opening + cooldown ≤ t + (now - t) := add_le_add ht (hcool t hlast)
          _ = now := add_sub_cancel t now
      exact absurd hnow (not_lt.mpr hlate)
  · omega

theorem Tally.start (h : Tally threshold opening calls before g started failed left) {now : τ}
    (hok : Ok threshold cooldown calls g (.start now)) (hnow : now < opening + cooldown) :
    Tally threshold opening calls before (step g (.start now)) (started + 1) failed left where
  count := by
    have := h.count
    simp only [step]
    omega
  inRow := h.inRow
  recent := h.recent
  bound := by
    have hcount := h.count
    have hroom := hok.2
    have hfew := h.failed_of_lets hok.1 hnow
    omega

omit [IsOrderedAddMonoid τ] in
theorem Tally.failure (h : Tally threshold opening calls before g started failed left) {now : τ}
    (hok : Ok threshold cooldown calls g (.failure now)) (hnow : opening ≤ now) :
    Tally threshold opening calls before (step g (.failure now)) started (failed + 1) left where
  count := by
    have hcount := h.count
    have hsome : 0 < g.underWay := hok
    simp only [step]
    omega
  inRow := Nat.succ_le_succ h.inRow
  recent := fun _ => ⟨now, rfl, hnow⟩
  bound := h.bound

omit [IsOrderedAddMonoid τ] in
theorem Tally.leave (h : Tally threshold opening calls before g started failed left)
    (hok : Ok threshold cooldown calls g .leave) :
    Tally threshold opening calls before (step g .leave) started failed (left + 1) where
  count := by
    have hcount := h.count
    have hsome : 0 < g.underWay := hok
    simp only [step]
    omega
  inRow := h.inRow
  recent := h.recent
  bound := by
    have := h.bound
    omega

theorem Tally.run {events : List (BreakerEvent τ)} (h : Tally threshold opening calls before g started failed left)
    (hok : Admitted step (Ok threshold cooldown calls) g events) (hwithin : ∀ e ∈ events, Within cooldown opening e) :
    started + starts events ≤ (threshold - 1).toNat + calls + (left + leaves events) := by
  induction events generalizing g started failed left with
  | nil => exact h.bound
  | cons e events ih =>
    have he := hwithin e List.mem_cons_self
    have hrest : ∀ e ∈ events, Within cooldown opening e := fun e he => hwithin e (List.mem_cons_of_mem _ he)
    cases e with
    | start now =>
      have := ih (h.start hok.1 he) hok.2 hrest
      simp only [starts, leaves, List.countP_cons] at this ⊢
      simp
      omega
    | success => exact he.elim
    | failure now =>
      have := ih (h.failure hok.1 he) hok.2 hrest
      simpa [starts, leaves] using this
    | leave =>
      have := ih (h.leave hok.1) hok.2 hrest
      simp only [starts, leaves, List.countP_cons] at this ⊢
      simp
      omega

/-- In a window without a success that is no longer than the cooldown, the failures and the calls that
are under way bound the calls that start. -/
theorem starts_le {events : List (BreakerEvent τ)} (hok : Admitted step (Ok threshold cooldown calls) g events)
    (hwithin : ∀ e ∈ events, Within cooldown opening e) :
    starts events ≤ (threshold - 1).toNat + calls + leaves events := by
  have := (tally_open calls g).run hok hwithin
  omega

end Breaker

end Occp.Lib
