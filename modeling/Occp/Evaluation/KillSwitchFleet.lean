import Mathlib.Logic.Function.Basic
import Occp.Evaluation.KillSwitchRedis

/-!
# A halt across processes

Processes start, lose Redis, restart and consult the switch in any order, while other
clients write to its keys. The halt reaches a process that knows of it: by the stored
record while it uses Redis, by its own switch once it does not.
-/

namespace Occp.Evaluation

open Lib (run Admitted)
open Orchestrator (Pipeline runTask)

/-- The stored record is one of a halt. -/
def RedisStore.shows (s : RedisStore) : Bool :=
  match s.halt with
  | some (some (.dict record)) => RedisKillSwitch.recordActive record
  | _ => false

namespace RedisKillSwitch

/-! ## What a process knows -/

def Knows (k : RedisKillSwitch) (s : RedisStore) : Prop :=
  (if k.available then s.shows else k.memory.isActive) = true

/-- Without its own switch to fall back on, the process has its first `n` calls answered. -/
def Quiet (k : RedisKillSwitch) (n : Nat) (raises : Nat → Bool) : Prop :=
  k.available = true → k.memory.isActive = false → ∀ i < n, raises i = false

theorem shows_eq_true {s : RedisStore} (h : s.shows = true) :
    ∃ record, s.halt = some (some (.dict record)) ∧ recordActive record = true := by
  unfold RedisStore.shows at h
  split at h
  · next record heq => exact ⟨record, heq, h⟩
  · cases h

theorem shows_congr {s s' : RedisStore} (h : s.halt = s'.halt) : s.shows = s'.shows := by
  unfold RedisStore.shows
  rw [h]

theorem knows_of_memory {k : RedisKillSwitch} (h : k.memory.isActive = true) (s : RedisStore)
    (hs : k.available = true → s.shows = true) : k.Knows s := by
  unfold Knows
  split
  · next havail => exact hs havail
  · exact h

@[simp] theorem memory_safeCall (k : RedisKillSwitch) (raises : Bool) : (k.safeCall raises).memory = k.memory := rfl

@[simp] theorem available_safeCall (k : RedisKillSwitch) (raises : Bool) :
    (k.safeCall raises).available = (k.available && !raises) := rfl

theorem safeCall_of_unavailable {k : RedisKillSwitch} (h : k.available = false) (raises : Bool) :
    k.safeCall raises = k := by
  obtain ⟨available, memory⟩ := k
  cases h
  rfl

theorem safeCall_answered (k : RedisKillSwitch) : k.safeCall false = k := by
  obtain ⟨available, memory⟩ := k
  rw [safeCall, Bool.not_false, Bool.and_true]

theorem Knows.safeCall {k : RedisKillSwitch} {s : RedisStore} (h : k.Knows s) {raises : Bool}
    (hquiet : k.available = true → k.memory.isActive = false → raises = false) : (k.safeCall raises).Knows s := by
  cases havail : k.available with
  | false => rwa [safeCall_of_unavailable havail]
  | true =>
    cases hmemory : k.memory.isActive with
    | false => rwa [hquiet havail hmemory, safeCall_answered]
    | true =>
      refine knows_of_memory (k := k.safeCall raises) hmemory s fun _ => ?_
      rwa [Knows, if_pos havail] at h

theorem Quiet.first {k : RedisKillSwitch} {n : Nat} {raises : Nat → Bool} (h : k.Quiet (n + 1) raises)
    (havail : k.available = true) (hmemory : k.memory.isActive = false) : raises 0 = false :=
  h havail hmemory 0 (by omega)

/-! ## What the operations do -/

theorem isActive_of_knows {k : RedisKillSwitch} {s : RedisStore} (h : k.Knows s) {raises : Bool}
    (hquiet : k.available = true → k.memory.isActive = false → raises = false) :
    (k.isActive s raises).1 = .ok true := by
  unfold isActive Knows at *
  split at h
  · next havail =>
    obtain ⟨record, hhalt, hrecord⟩ := shows_eq_true h
    cases raises with
    | false => simp [get, havail, hhalt, hrecord]
    | true =>
      have hmemory : k.memory.isActive = true := by
        by_contra hnot
        exact Bool.noConfusion (hquiet havail (Bool.eq_false_iff.mpr hnot))
      simp [get, havail, hmemory]
  · next havail => simp [havail, h]

@[simp] theorem isActive_switch (k : RedisKillSwitch) (s : RedisStore) (raises : Bool) :
    (k.isActive s raises).2 = k.safeCall raises := by
  have hget : (k.get s raises).2 = k.safeCall raises := rfl
  unfold isActive
  split
  · split
    · next heq => rw [← hget, heq]
    · next heq => rw [← hget, heq]
    · next heq => rw [← hget, heq]
    · next heq => rw [← hget, heq]
  · next havail => exact (safeCall_of_unavailable (Bool.eq_false_iff.mpr havail) raises).symm

@[simp] theorem status_switch (k : RedisKillSwitch) (s : RedisStore) (raises : Nat → Bool) :
    (k.status s raises).2 = (k.safeCall (raises 0)).safeCall (raises 1) := by
  unfold status get
  dsimp only
  split
  · rfl
  · rfl

/-- A probe that Redis answers with a halt says why, and never raises. -/
theorem probe_of_shows {k : RedisKillSwitch} {s : RedisStore} (havail : k.available = true) (h : s.shows = true)
    {raises : Nat → Bool} (hquiet : ∀ i < 3, raises i = false) :
    ∃ reason, k.probe s raises = (.ok (some reason), k) := by
  obtain ⟨record, hhalt, hrecord⟩ := shows_eq_true h
  have hactive : k.isActive s (raises 0) = (.ok true, k) := by
    simp [isActive, get, havail, hhalt, hrecord, hquiet, safeCall_answered]
  have hne : record.isEmpty = false := by
    cases record with
    | nil => cases hrecord
    | cons e rest => rfl
  unfold probe
  rw [hactive]
  simp [status, get, havail, hhalt, hquiet, safeCall_answered, statusOf, reasonOf, Value.truthy, hne, Except.bind,
    Except.map, Dict.get?]

@[simp] theorem isSome_guard (k : RedisKillSwitch) : k.guard.isSome = k.memory.isActive := by
  unfold guard KillSwitch.requireInactive
  cases k.memory.isActive with
  | true => rfl
  | false => rfl

theorem Knows.probe {k : RedisKillSwitch} {s : RedisStore} (h : k.Knows s) {raises : Nat → Bool}
    (hquiet : k.Quiet 3 raises) (hmemory : k.memory.isActive = false) :
    ∃ reason, k.probe s raises = (.ok (some reason), k) := by
  cases havail : k.available with
  | true =>
    rw [Knows, if_pos havail] at h
    exact probe_of_shows havail h (hquiet havail hmemory)
  | false =>
    rw [Knows, havail, if_neg Bool.false_ne_true, hmemory] at h
    cases h

/-- A run with a switch that knows of the halt is refused. -/
theorem Knows.refusal {k : RedisKillSwitch} {s : RedisStore} (h : k.Knows s) {raises : Nat → Bool}
    (hquiet : k.Quiet 3 raises) (text : Value → String) (enforceToolGuard : Bool) :
    (Orchestrator.refusal (k.process s raises text enforceToolGuard)).isSome = true := by
  have hguard := isSome_guard k
  unfold Orchestrator.refusal process
  cases hg : k.guard with
  | some exc => rfl
  | none =>
    rw [hg] at hguard
    obtain ⟨reason, hprobe⟩ := h.probe hquiet hguard.symm
    rw [hprobe]
    rfl

theorem Knows.probed {k : RedisKillSwitch} {s : RedisStore} (h : k.Knows s) {raises : Nat → Bool}
    (hquiet : k.Quiet 3 raises) : (k.probed s raises).Knows s := by
  unfold RedisKillSwitch.probed
  split
  · exact h
  · next hguard =>
    rw [isSome_guard, Bool.not_eq_true] at hguard
    obtain ⟨reason, hprobe⟩ := h.probe hquiet hguard
    rwa [hprobe]

@[simp] theorem pushHistory_halt (k : RedisKillSwitch) (s : RedisStore) (pushRaises trimRaises : Bool)
    (payload : Payload) : (k.pushHistory s pushRaises trimRaises payload).2.halt = s.halt := by
  unfold pushHistory
  dsimp only
  split <;> split <;> rfl

theorem shows_set (s : RedisStore) (answered : Bool) (t : KillSwitchTrigger) (actor reason : String)
    (evidence : Dict Value) :
    (if answered then { s with halt := some (some (haltRecord t actor reason evidence)) } else s).shows =
      (answered || s.shows) := by
  cases answered with
  | true => rfl
  | false => rfl

/-- An activation turns the own switch on, and writes the record when the SET is answered. -/
theorem activate_effect (k : RedisKillSwitch) (s : RedisStore) (raises : Nat → Bool) {trigger : String}
    {t : KillSwitchTrigger} (h : KillSwitchTrigger.ofValue trigger = .ok t) (actor reason : String)
    (evidence : Dict Value) :
    let (result, k', s') := k.activate s raises trigger actor reason evidence
    result = .ok (haltRecord t actor reason evidence) ∧ k'.memory.isActive = true ∧
      k'.available = (k.available && !raises 0 && !raises 1 && !raises 2) ∧
      s'.shows = (k.available && !raises 0 || s.shows) := by
  unfold activate
  rw [h]
  have hpush := pushHistory_halt (k.safeCall (raises 0))
    (if (k.safeCall (raises 0)).available then { s with halt := some (some (haltRecord t actor reason evidence)) }
      else s)
    (raises 1) (raises 2) (some (haltRecord t actor reason evidence))
  exact ⟨rfl, rfl, rfl, (shows_congr hpush).trans (shows_set s _ t actor reason evidence)⟩

theorem activate_invalid (k : RedisKillSwitch) (s : RedisStore) (raises : Nat → Bool) {trigger : String} {e : PyError}
    (h : KillSwitchTrigger.ofValue trigger = .error e) (actor reason : String) (evidence : Dict Value) :
    k.activate s raises trigger actor reason evidence = (.error e, k, s) := by
  unfold activate
  rw [h]

/-- A GET that returns something was answered. -/
theorem get_some {k k' : RedisKillSwitch} {s : RedisStore} {raises : Bool} {payload : Payload}
    (h : k.get s raises = (some payload, k')) : k' = k := by
  unfold get at h
  dsimp only at h
  split at h
  · next hanswered =>
    rw [available_safeCall, Bool.and_eq_true, Bool.not_eq_true'] at hanswered
    rw [← (Prod.mk.inj h).2, hanswered.2, safeCall_answered]
  · cases (Prod.mk.inj h).1

/-- A deactivation that raises has changed nothing. -/
theorem deactivate_raised (k : RedisKillSwitch) (s : RedisStore) (raises : Nat → Bool) (actor reason : String)
    {e : PyError} (h : (k.deactivate s raises actor reason).1 = .error e) :
    (k.deactivate s raises actor reason).2 = (k, s) := by
  unfold deactivate at h ⊢
  cases hget : k.get s (raises 0) with
  | mk raw k' =>
    rw [hget] at h
    cases raw with
    | none => cases h
    | some payload =>
      rw [get_some hget] at h ⊢
      dsimp only at h ⊢
      split at h
      · cases h
      · rfl

end RedisKillSwitch

/-! ## Any order of steps -/

structure Fleet where
  store : RedisStore := {}
  /-- The processes that run, by number. -/
  switches : Nat → Option RedisKillSwitch := fun _ => none
  /-- The code keeps no such flag: a halt was activated, and not deactivated since. -/
  halted : Bool := false

namespace Fleet

inductive Event where
  /-- A process starts, or restarts and loses its memory. -/
  | start (pid : Nat) (connects : Bool)
  /-- `get_redis_kill_switch(force_new=True)`. -/
  | reconnect (pid : Nat) (connects : Bool)
  | activate (pid : Nat) (raises : Nat → Bool) (trigger actor reason : String) (evidence : Dict Value)
  | deactivate (pid : Nat) (raises : Nat → Bool) (actor reason : String)
  | isActive (pid : Nat) (raises : Bool)
  | status (pid : Nat) (raises : Nat → Bool)
  /-- A task comes to `Pipeline.run`. -/
  | runTask (pid : Nat) (raises : Nat → Bool)
  /-- Any other client of Redis changes the keys. -/
  | write (store : RedisStore)

def put (f : Fleet) (pid : Nat) (k : RedisKillSwitch) : Fleet :=
  { f with switches := Function.update f.switches pid (some k) }

/-- Only a process that runs takes a step. -/
def on (f : Fleet) (pid : Nat) (act : RedisKillSwitch → Fleet) : Fleet :=
  match f.switches pid with
  | some k => act k
  | none => f

def step (f : Fleet) : Event → Fleet
  | .start pid connects => f.put pid { available := connects }
  | .reconnect pid connects => f.on pid fun k => f.put pid { k with available := connects }
  | .activate pid raises trigger actor reason evidence => f.on pid fun k =>
    let (result, k, store) := k.activate f.store raises trigger actor reason evidence
    { f.put pid k with store, halted := f.halted || result.isOk }
  | .deactivate pid raises actor reason => f.on pid fun k =>
    let (result, k, store) := k.deactivate f.store raises actor reason
    { f.put pid k with store, halted := f.halted && !result.isOk }
  | .isActive pid raises => f.on pid fun k => f.put pid (k.isActive f.store raises).2
  | .status pid raises => f.on pid fun k => f.put pid (k.status f.store raises).2
  | .runTask pid raises => f.on pid fun k => f.put pid (k.probed f.store raises)
  | .write store => { f with store }

/-- What a halt asks of the step: no process that needs Redis loses it or a record of the halt. -/
def Safe (f : Fleet) : Event → Prop
  | .start _ connects => f.halted = true → connects = true ∧ f.store.shows = true
  | .reconnect pid connects => f.halted = true → ∀ k, f.switches pid = some k →
      (if connects then f.store.shows else k.memory.isActive) = true
  | .activate pid raises trigger .. => (KillSwitchTrigger.ofValue trigger).isOk = true →
      ∀ k, f.switches pid = some k → ∀ other k', other ≠ pid → f.switches other = some k' →
        (if k'.available then k.available && !raises 0 || f.store.shows else k'.memory.isActive) = true
  | .deactivate .. => True
  | .isActive pid raises => f.halted = true → ∀ k, f.switches pid = some k → k.Quiet 1 fun _ => raises
  | .status pid raises => f.halted = true → ∀ k, f.switches pid = some k → k.Quiet 2 raises
  | .runTask pid raises => f.halted = true → ∀ k, f.switches pid = some k → k.Quiet 3 raises
  | .write store => f.halted = true → ∀ pid k, f.switches pid = some k → k.available = true → store.shows = true

/-- Whoever asks is told to stop, and a run calls no component. -/
def Answers (f : Fleet) : Event → Prop
  | .isActive pid raises => ∀ k, f.switches pid = some k → (k.isActive f.store raises).1 = .ok true
  | .runTask pid raises => ∀ k, f.switches pid = some k → ∀ (p : Pipeline) (task : Task) (text : Value → String)
      (enforceToolGuard : Bool), (runTask p (k.process f.store raises text enforceToolGuard) task).2.calls = []
  | _ => True

/-- Every process knows of the halt. -/
def Informed (f : Fleet) : Prop := f.halted = true → ∀ pid k, f.switches pid = some k → k.Knows f.store

theorem informed_put {f : Fleet} (h : f.Informed) {pid : Nat} {k : RedisKillSwitch}
    (hk : f.halted = true → k.Knows f.store) : (f.put pid k).Informed := by
  intro hhalted pid' k' hk'
  unfold put at hk'
  dsimp only at hk'
  rw [Function.update_apply] at hk'
  split at hk'
  · rw [← Option.some.inj hk']
    exact hk hhalted
  · exact h hhalted pid' k' hk'

theorem informed_on {f : Fleet} (h : f.Informed) {pid : Nat} {act : RedisKillSwitch → Fleet}
    (hact : ∀ k, f.switches pid = some k → (act k).Informed) : (f.on pid act).Informed := by
  unfold on
  split
  · next k hk => exact hact k hk
  · exact h

/-- An activation is known to its own process, and to the others that need not wait for Redis. -/
theorem informed_activate {f : Fleet} (h : f.Informed) {pid : Nat} {raises : Nat → Bool}
    {trigger actor reason : String} {evidence : Dict Value}
    (hsafe : f.Safe (.activate pid raises trigger actor reason evidence)) :
    (f.step (.activate pid raises trigger actor reason evidence)).Informed := by
  refine informed_on h fun k hk => ?_
  cases htrigger : KillSwitchTrigger.ofValue trigger with
  | error e =>
    rw [RedisKillSwitch.activate_invalid k f.store raises htrigger]
    intro hhalted
    dsimp only [Except.isOk, Except.toBool] at hhalted
    rw [Bool.or_false] at hhalted
    exact informed_put h (fun hf => h hf pid k hk) hhalted
  | ok t =>
    have hvalid : (KillSwitchTrigger.ofValue trigger).isOk = true := by rw [htrigger]; rfl
    have heffect := RedisKillSwitch.activate_effect k f.store raises htrigger actor reason evidence
    cases hact : k.activate f.store raises trigger actor reason evidence with
    | mk result rest =>
      obtain ⟨k', s'⟩ := rest
      rw [hact] at heffect
      obtain ⟨hresult, hmemory, havail, hshows⟩ := heffect
      intro hhalted other k'' hk''
      dsimp only [put] at hk'' ⊢
      rw [Function.update_apply] at hk''
      split at hk''
      · rw [← Option.some.inj hk'']
        refine RedisKillSwitch.knows_of_memory hmemory s' fun hk' => ?_
        rw [havail, Bool.and_eq_true, Bool.and_eq_true] at hk'
        rw [hshows, hk'.1.1, Bool.true_or]
      · next hother =>
        have hknows := hsafe hvalid k hk other k'' hother hk''
        unfold RedisKillSwitch.Knows
        rw [hshows]
        exact hknows

theorem informed_deactivate {f : Fleet} (h : f.Informed) (pid : Nat) (raises : Nat → Bool) (actor reason : String) :
    (f.step (.deactivate pid raises actor reason)).Informed := by
  refine informed_on h fun k hk => ?_
  cases hact : k.deactivate f.store raises actor reason with
  | mk result rest =>
    obtain ⟨k', s'⟩ := rest
    intro hhalted
    cases result with
    | ok record =>
      dsimp only [Except.isOk, Except.toBool] at hhalted
      rw [Bool.not_true, Bool.and_false] at hhalted
      cases hhalted
    | error e =>
      have hsame := RedisKillSwitch.deactivate_raised k f.store raises actor reason (by rw [hact])
      rw [hact, Prod.mk.injEq] at hsame
      obtain ⟨rfl, rfl⟩ := hsame
      dsimp only [Except.isOk, Except.toBool] at hhalted
      rw [Bool.not_false, Bool.and_true] at hhalted
      exact informed_put h (fun hf => h hf pid k' hk) hhalted

/-- A safe step leaves every process informed. -/
theorem informed_step {f : Fleet} {e : Event} (h : f.Informed) (hsafe : f.Safe e) : (f.step e).Informed := by
  cases e with
  | start pid connects =>
    refine informed_put h fun hhalted => ?_
    obtain ⟨rfl, hshows⟩ := hsafe hhalted
    exact hshows
  | reconnect pid connects => exact informed_on h fun k hk => informed_put h fun hhalted => hsafe hhalted k hk
  | activate pid raises trigger actor reason evidence => exact informed_activate h hsafe
  | deactivate pid raises actor reason => exact informed_deactivate h pid raises actor reason
  | isActive pid raises =>
    refine informed_on h fun k hk => informed_put h fun hhalted => ?_
    rw [RedisKillSwitch.isActive_switch]
    exact (h hhalted pid k hk).safeCall (hsafe hhalted k hk).first
  | status pid raises =>
    refine informed_on h fun k hk => informed_put h fun hhalted => ?_
    have hquiet := hsafe hhalted k hk
    rw [RedisKillSwitch.status_switch]
    refine ((h hhalted pid k hk).safeCall hquiet.first).safeCall fun havail hmemory => ?_
    rw [RedisKillSwitch.available_safeCall, Bool.and_eq_true] at havail
    exact hquiet havail.1 hmemory 1 (by omega)
  | runTask pid raises =>
    exact informed_on h fun k hk => informed_put h fun hhalted => (h hhalted pid k hk).probed (hsafe hhalted k hk)
  | write store =>
    intro hhalted pid k hk
    have hknows := h hhalted pid k hk
    unfold RedisKillSwitch.Knows at hknows ⊢
    split
    · next havail => exact hsafe hhalted pid k hk havail
    · next havail => rwa [if_neg havail] at hknows

theorem answers_of_informed {f : Fleet} {e : Event} (h : f.Informed) (hhalted : f.halted = true) (hsafe : f.Safe e) :
    f.Answers e := by
  cases e with
  | isActive pid raises =>
    exact fun k hk => RedisKillSwitch.isActive_of_knows (h hhalted pid k hk) (hsafe hhalted k hk).first
  | runTask pid raises =>
    intro k hk p task text enforceToolGuard
    have hrefusal := (h hhalted pid k hk).refusal (hsafe hhalted k hk) text enforceToolGuard
    exact Orchestrator.calls_of_refusal hrefusal p task
  | _ => trivial

/-- **A halt that every step respects holds in every process.** -/
theorem halt_holds (store : RedisStore) (events : List Event) (h : Admitted step Safe { store } events) :
    ∀ before e after, events = before ++ e :: after → (run step { store } before).halted = true →
      (run step { store } before).Answers e := by
  rintro before e after rfl hhalted
  obtain ⟨hbefore, hsafe, -⟩ := Lib.admitted_append.mp h
  have hinformed : (run step { store } before).Informed :=
    hbefore.invariant Informed (fun hnot => absurd hnot Bool.false_ne_true) fun f e hf hok => informed_step hf hok
  exact answers_of_informed hinformed hhalted hsafe

/-- Two processes on Redis; one of them halts, the other restarts. -/
def haltAndRestart : List Event :=
  [.start 0 true, .start 1 true, .activate 0 (fun _ => false) "manual" "h" "stop" [], .start 1 true]

/-- The restarted process finds the halt in Redis. -/
theorem restarted_process_stops : (run step {} haltAndRestart).Answers (.isActive 1 false) := by
  refine halt_holds {} (haltAndRestart ++ [.isActive 1 false]) ?_ haltAndRestart (.isActive 1 false) [] rfl rfl
  refine ⟨nofun, nofun, fun _ k hk other k' hother hk' => ?_, fun _ => ⟨rfl, rfl⟩,
    fun _ k hk havail hmemory i hi => rfl, trivial⟩
  cases hk
  by_cases hone : other = 1
  · subst hone
    cases hk'
    rfl
  · have hnone : (run step {} [.start 0 true, .start 1 true]).switches other = none := by
      simp [step, put, hone, hother]
    have hk'' : (run step {} [.start 0 true, .start 1 true]).switches other = some k' := hk'
    rw [hnone] at hk''
    cases hk''

/-- A process that loses Redis after another one has halted falls back on its own switch, which
is off; a corrupt record reads as no halt, and one that is no dictionary raises. -/
theorem lost_connection_hides_the_halt :
    let f := run step {} [.start 0 true, .start 1 true, .activate 0 (fun _ => false) "manual" "h" "stop" []]
    f.halted = true ∧ ∃ k, f.switches 1 = some k ∧ (k.isActive f.store true).1 = .ok false ∧
      (k.isActive { f.store with halt := some none } false).1 = .ok false ∧
      (k.isActive { f.store with halt := some (some (.list [])) } false).1 =
        .error (.other "AttributeError" "'list' object has no attribute 'get'") ∧
      ∃ (p : Pipeline) (task : Task) (text : Value → String),
        (runTask p (k.process f.store (fun _ => true) text false) task).2.calls ≠ [] := by
  refine ⟨rfl, { available := true }, rfl, rfl, rfl, rfl, ?_⟩
  refine ⟨⟨fun _ => .ok .none, fun _ => .error (.valueError ""), fun _ _ => .ok .none, fun _ => .ok [],
    fun _ => .ok .none, none, 0, none, none, 2, none⟩,
    { id := "t", name := "t", description := "", agentType := "a" }, fun _ => "", ?_⟩
  intro h
  cases h

end Fleet

end Occp.Evaluation
