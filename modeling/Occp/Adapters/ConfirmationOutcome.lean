import Occp.Adapters.ConfirmationGate

/-!
# The answer that was taken is the outcome

Where no timer fires on an answered call and no answer is taken from a chat whose timer has
fired, each call has one outcome, and the counters add up.
-/

namespace Occp.Adapters

open Lib (run Admitted countP_set_add getElem?_set_cases getElem?_concat_cases getElem?_concat_of_some)

/-! ## Counting -/

def countStatus (calls : List Call) (status : ConfirmationStatus) : Nat := calls.countP fun c => c.status = status

theorem length_eq_countStatus (calls : List Call) :
    calls.length = countStatus calls .pending + countStatus calls .approved + countStatus calls .rejected +
      countStatus calls .timeout + countStatus calls .autoApproved := by
  unfold countStatus
  induction calls with
  | nil => rfl
  | cons c rest ih =>
    simp only [List.countP_cons, List.length_cons]
    cases c.status with
    | _ =>
      simp
      omega

namespace ConfirmationGate

variable (cfg : Config) (g : ConfirmationGate)

/-- No call has an outcome that it has not returned. -/
def Quiescent : Prop :=
  ∀ (k : Nat) c, g.calls[k]? = some c → c.live = true → c.status = .pending ∧ c.expired = false

/-- A request of its own task; no answer after the timer, and no timer after the answer. -/
def NoRace : Event → Prop
  | .request taskId _ riskLevel => cfg.autoApproves riskLevel = true ∨ g.pending.get? taskId = none
  | .respond chatId _ =>
    ∀ k c, g.getPendingByChat chatId = some (k, c) → c.status = .pending → c.expired = false ∧ 0 < cfg.timeout
  | .timer k => ∀ c, g.calls[k]? = some c → c.live = true → c.status = .pending
  | .proceed _ => True

/-- One outcome for each call. -/
structure OneOutcome (c : Call) : Prop where
  answered : c.live = true → c.status ≠ .pending → c.expired = false ∧ 0 < cfg.timeout
  returned : c.live = false → c.status ≠ .pending ∧ c.stage = .returned c.status
  notAuto : c.status ≠ .autoApproved

structure Counted : Prop where
  registered : g.Registered
  outcome : ∀ (k : Nat) c, g.calls[k]? = some c → OneOutcome cfg c
  requests : g.totalRequests = g.totalAutoApproved + g.calls.length
  approved : g.totalApproved = countStatus g.calls .approved
  rejected : g.totalRejected = countStatus g.calls .rejected
  timeouts : g.totalTimeouts = countStatus g.calls .timeout
  pendingCount : g.pendingCount = g.calls.countP (·.live)

variable {cfg g} {k : Nat} {c : Call}

/-! ## A quiescent gate -/

theorem Counted.counters_agree (hg : Counted cfg g) (hquiescent : g.Quiescent) :
    g.totalRequests =
      g.totalAutoApproved + g.totalApproved + g.totalRejected + g.totalTimeouts + g.pendingCount := by
  have hauto : countStatus g.calls .autoApproved = 0 := by
    unfold countStatus
    rw [List.countP_eq_zero]
    intro c hc
    obtain ⟨k, hk⟩ := List.mem_iff_getElem?.mp hc
    simpa using (hg.outcome k c hk).notAuto
  have hpending : countStatus g.calls .pending = g.pendingCount := by
    rw [hg.pendingCount]
    unfold countStatus
    refine List.countP_congr fun c hc => ?_
    obtain ⟨k, hk⟩ := List.mem_iff_getElem?.mp hc
    simp only [decide_eq_true_eq]
    constructor
    · intro hstatus
      by_contra hdead
      rw [Bool.not_eq_true] at hdead
      exact ((hg.outcome k c hk).returned hdead).1 hstatus
    · exact fun hlive => (hquiescent k c hk hlive).1
  rw [hg.requests, length_eq_countStatus, hauto, hpending, hg.approved, hg.rejected, hg.timeouts]
  omega

/-! ## Each step keeps the counts -/

theorem countStatus_set (status : ConfirmationStatus) (c' : Call) (hk : g.calls[k]? = some c) :
    countStatus (g.calls.set k c') status + (if c.status = status then 1 else 0) =
      countStatus g.calls status + (if c'.status = status then 1 else 0) := by
  have hset := countP_set_add (fun c : Call => decide (c.status = status)) (y := c') hk
  simpa [countStatus] using hset

theorem Counted.outcome_set (hg : Counted cfg g) {c' : Call} (hc' : OneOutcome cfg c') :
    ∀ (k' : Nat) d, (g.calls.set k c')[k']? = some d → OneOutcome cfg d := by
  intro k' d hd
  rcases getElem?_set_cases hd with ⟨-, rfl⟩ | ⟨-, hold⟩
  · exact hc'
  · exact hg.outcome k' d hold

/-- One call changes, and the counters change with its status. -/
theorem Counted.set {g' : ConfirmationGate} {c' : Call} (hg : Counted cfg g) (hk : g.calls[k]? = some c)
    (hcalls : g'.calls = g.calls.set k c') (hregistered : g'.Registered) (hc' : OneOutcome cfg c')
    (hrequests : g'.totalRequests = g.totalRequests) (hauto : g'.totalAutoApproved = g.totalAutoApproved)
    (happroved : g'.totalApproved + (if c.status = .approved then 1 else 0) =
      g.totalApproved + (if c'.status = .approved then 1 else 0))
    (hrejected : g'.totalRejected + (if c.status = .rejected then 1 else 0) =
      g.totalRejected + (if c'.status = .rejected then 1 else 0))
    (htimeouts : g'.totalTimeouts + (if c.status = .timeout then 1 else 0) =
      g.totalTimeouts + (if c'.status = .timeout then 1 else 0))
    (hpending : g'.pendingCount + (if c.live then 1 else 0) = g.pendingCount + (if c'.live then 1 else 0)) :
    Counted cfg g' := by
  have hcount (status : ConfirmationStatus) := countStatus_set status c' hk
  have hlives := countP_set_add (fun c : Call => c.live) hk (y := c')
  rw [← hcalls] at hlives
  simp only [← hcalls] at hcount
  refine ⟨hregistered, ?_, ?_, ?_, ?_, ?_, ?_⟩
  · rw [hcalls]
    exact hg.outcome_set hc'
  · rw [hrequests, hauto, hcalls, List.length_set, hg.requests]
  · have := hcount .approved
    have := hg.approved
    omega
  · have := hcount .rejected
    have := hg.rejected
    omega
  · have := hcount .timeout
    have := hg.timeouts
    omega
  · have := hg.pendingCount
    omega

theorem Counted.moved (hg : Counted cfg g) {c' : Call} (hk : g.calls[k]? = some c) (hlive : c.live = true)
    (hlive' : c'.live = true) (hregistered : (g.setCall k c').Registered) (hstatus : c'.status = c.status)
    (hc' : OneOutcome cfg c') : Counted cfg (g.setCall k c') := by
  apply hg.set hk rfl hregistered hc' rfl rfl
  · rw [hstatus, setCall]
  · rw [hstatus, setCall]
  · rw [hstatus, setCall]
  · rw [hlive, hlive', setCall, ConfirmationGate.pendingCount, ConfirmationGate.pendingCount]

theorem Counted.register (hg : Counted cfg g) (hregistered : (g.register c).Registered)
    (hnone : g.pending.get? c.taskId = none) (hlive : c.live = true) (hstatus : c.status = .pending) :
    Counted cfg ({ g with totalRequests := g.totalRequests + 1 }.register c) := by
  have hcount (status : ConfirmationStatus) (hne : status ≠ .pending) :
      countStatus (g.calls ++ [c]) status = countStatus g.calls status := by
    unfold countStatus
    rw [List.countP_append, List.countP_singleton, hstatus]
    simp [Ne.symm hne]
  refine ⟨⟨hregistered.nodup, hregistered.ofEntry, hregistered.ofLive⟩, fun k d hd => ?_, ?_, ?_, ?_, ?_, ?_⟩
  · rcases getElem?_concat_cases hd with ⟨-, rfl⟩ | hold
    · refine ⟨fun _ hne => absurd hstatus hne, fun hdead => ?_, by simp [hstatus]⟩
      rw [hlive] at hdead
      cases hdead
    · exact hg.outcome k d hold
  · have hrequests := hg.requests
    unfold ConfirmationGate.register
    simp only [List.length_append, List.length_singleton]
    omega
  · exact hg.approved.trans (hcount _ (by simp)).symm
  · exact hg.rejected.trans (hcount _ (by simp)).symm
  · exact hg.timeouts.trans (hcount _ (by simp)).symm
  · have hpending := hg.pendingCount
    unfold ConfirmationGate.pendingCount ConfirmationGate.register at *
    dsimp only
    rw [Dict.length_set_of_notMem _ _ _ hnone, hpending, List.countP_append, List.countP_singleton, if_pos hlive]

theorem Counted.answer (hg : Counted cfg g) {text : String} (hk : g.calls[k]? = some c) (hlive : c.live = true)
    (hstatus : c.status = .pending) (hregistered : (g.answer k c text).Registered)
    (hrace : c.expired = false ∧ 0 < cfg.timeout) : Counted cfg (g.answer k c text) := by
  have hnew (status : ConfirmationStatus) (hne : status ≠ .autoApproved) : OneOutcome cfg (c.answered text status) := by
    refine ⟨fun _ _ => hrace, fun hdead => ?_, hne⟩
    rw [Call.answered_live, hlive] at hdead
    cases hdead
  unfold ConfirmationGate.answer at hregistered ⊢
  split at hregistered
  · next htext =>
    rw [if_pos htext]
    apply hg.set hk rfl hregistered (hnew .approved (by simp)) rfl rfl
    · simp [hstatus]
    · simp [hstatus, setCall]
    · simp [hstatus, setCall]
    · simp [hlive, setCall, ConfirmationGate.pendingCount]
  · next htext =>
    rw [if_neg htext]
    apply hg.set hk rfl hregistered (hnew .rejected (by simp)) rfl rfl
    · simp [hstatus, setCall]
    · simp [hstatus]
    · simp [hstatus, setCall]
    · simp [hlive, setCall, ConfirmationGate.pendingCount]

/-- A call ends with the status that it returns. -/
theorem OneOutcome.ended (hc : OneOutcome cfg c) (hdone : c.expired = true ∨ c.status ≠ .pending) :
    OneOutcome cfg c.ended := by
  have hreturned : c.ended.status ≠ .pending ∧ c.ended.stage = .returned c.ended.status := by
    unfold Call.ended
    split
    · exact ⟨nofun, rfl⟩
    · next hexpired => exact ⟨hdone.resolve_left hexpired, rfl⟩
  have hnotAuto : c.ended.status ≠ .autoApproved := by
    unfold Call.ended
    split
    · nofun
    · exact hc.notAuto
  refine ⟨fun hlive => ?_, fun _ => hreturned, hnotAuto⟩
  rw [Call.ended_live] at hlive
  cases hlive

theorem Counted.finish (hg : Counted cfg g) (hk : g.calls[k]? = some c) (hlive : c.live = true)
    (hdone : c.expired = true ∨ c.status ≠ .pending) : Counted cfg (g.finish k c) := by
  have hregistered := hg.registered.finish hk hlive
  have hentry := hg.registered.ofLive k c hk hlive
  have hpop := Dict.length_pop _ _ _ hg.registered.nodup hentry
  have hpending : (g.finish k c).pendingCount + (if c.live then 1 else 0) =
      g.pendingCount + (if c.ended.live then 1 else 0) := by
    rw [hlive, Call.ended_live, ConfirmationGate.pendingCount, finish_pending]
    exact hpop
  have hc := hg.outcome k c hk
  have hcalls : (g.finish k c).calls = g.calls.set k c.ended := finish_calls
  have hset := hg.set hk hcalls hregistered (hc.ended hdone)
  clear hregistered hcalls
  unfold ConfirmationGate.finish at hpending hset ⊢
  by_cases hexpired : c.expired = true
  · have hstatus : c.status = .pending := by
      by_contra hne
      have := (hc.answered hlive hne).1
      rw [hexpired] at this
      cases this
    have hended : c.ended.status = .timeout := by
      rw [Call.ended, if_pos hexpired]
      rfl
    simp only [if_pos hexpired] at hpending hset ⊢
    refine hset rfl rfl ?_ ?_ ?_ hpending
    · simp [hstatus, hended, cleanup, setCall]
    · simp [hstatus, hended, cleanup, setCall]
    · simp [hstatus, hended, cleanup, setCall]
  · have hended : c.ended.status = c.status := by
      rw [Call.ended, if_neg hexpired]
      rfl
    simp only [if_neg hexpired] at hpending hset ⊢
    refine hset rfl rfl ?_ ?_ ?_ hpending
    · rw [hended]
      rfl
    · rw [hended]
      rfl
    · rw [hended]
      rfl

theorem NoRace.unclaimed {e : Event} (he : NoRace cfg g e) : Unclaimed cfg g e := by
  cases e with
  | request taskId chatId riskLevel => exact he
  | respond chatId text => trivial
  | timer k => trivial
  | proceed k => trivial

theorem Counted.step (hg : Counted cfg g) {e : Event} (he : NoRace cfg g e) : Counted cfg (g.step cfg e) := by
  have hsteps := step_steps cfg g e
  have hregistered := hg.registered.step he.unclaimed
  generalize g.step cfg e = g' at hsteps hregistered ⊢
  cases hsteps with
  | autoApproved hauto =>
    have hrequests := hg.requests
    refine ⟨hregistered, hg.outcome, ?_, hg.approved, hg.rejected, hg.timeouts, hg.pendingCount⟩
    dsimp only
    omega
  | registered hauto hstatus hlive =>
    rcases he with hauto' | hnone
    · rw [hauto'] at hauto
      cases hauto
    · exact hg.register (hg.registered.register hnone hlive) hnone hlive hstatus
  | ignored hnone => exact hg
  | answered hget hstatus =>
    obtain ⟨hk, hlive⟩ := hg.registered.live_of_getPendingByChat hget
    exact hg.answer hk hlive hstatus hregistered (he _ _ hget hstatus)
  | noTimer => exact hg
  | expired hk hlive =>
    have hstatus := he _ hk hlive
    refine hg.moved hk hlive hlive hregistered rfl ⟨fun _ hne => absurd hstatus hne, fun hdead => ?_, ?_⟩
    · have hdead' : _ = false := hlive.symm.trans hdead
      cases hdead'
    · exact (hg.outcome _ _ hk).notAuto
  | stays hpending => exact hg
  | @moved k c c' hk hlive hlive' hsame hrank hexpired =>
    have hstatus : c'.status = c.status := congrArg PendingConfirmation.status hsame
    have hc := hg.outcome k c hk
    refine hg.moved hk hlive hlive' hregistered hstatus ⟨fun _ hne => ?_, fun hdead => ?_, hstatus ▸ hc.notAuto⟩
    · obtain ⟨hnot, htimeout⟩ := hc.answered hlive (hstatus ▸ hne)
      rcases hexpired with heq | ⟨-, hzero⟩
      · exact ⟨heq.trans hnot, htimeout⟩
      · omega
    · rw [hlive'] at hdead
      cases hdead
  | finished hk hlive hdone => exact hg.finish hk hlive hdone

/-! ## What becomes of an approved call -/

/-- The call at `k` is approved, and returns it within this many steps of its own. -/
def Settles (k steps : Nat) (g : ConfirmationGate) : Prop :=
  ∃ c, g.calls[k]? = some c ∧ c.status = .approved ∧
    (c.stage = .returned .approved ∨ c.live = true ∧ c.stage.rank ≤ steps)

theorem Settles.set {steps steps' k' : Nat} {d d' : Call} (h : Settles k steps g) (hd : g.calls[k']? = some d)
    (hsame : k' ≠ k → steps ≤ steps')
    (hmove : k' = k → d.status = .approved → (d.stage = .returned .approved ∨ d.live = true ∧ d.stage.rank ≤ steps) →
      d'.status = .approved ∧ (d'.stage = .returned .approved ∨ d'.live = true ∧ d'.stage.rank ≤ steps')) :
    ∃ c, (g.calls.set k' d')[k]? = some c ∧ c.status = .approved ∧
      (c.stage = .returned .approved ∨ c.live = true ∧ c.stage.rank ≤ steps') := by
  obtain ⟨c, hk, happroved, hstage⟩ := h
  by_cases heq : k' = k
  · subst heq
    obtain rfl : d = c := Option.some.inj (hd.symm.trans hk)
    exact ⟨d', List.getElem?_set_self (List.getElem?_eq_some_iff.mp hd).1, hmove rfl happroved hstage⟩
  · refine ⟨c, by rw [List.getElem?_set_ne heq, hk], happroved, ?_⟩
    have hle := hsame heq
    exact hstage.imp_right fun ⟨hlive, hrank⟩ => ⟨hlive, hrank.trans hle⟩

theorem Settles.step {steps : Nat} (hg : Counted cfg g) {e : Event} (he : NoRace cfg g e) (h : Settles k steps g) :
    Settles k (if e = .proceed k then steps - 1 else steps) (g.step cfg e) := by
  have hsteps := step_steps cfg g e
  generalize g.step cfg e = g' at hsteps ⊢
  cases hsteps with
  | autoApproved hauto =>
    simp only [reduceCtorEq, if_false]
    exact h
  | registered hauto hstatus hlive =>
    simp only [reduceCtorEq, if_false]
    obtain ⟨c, hk, happroved, hstage⟩ := h
    exact ⟨c, getElem?_concat_of_some hk, happroved, hstage⟩
  | ignored hnone =>
    simp only [reduceCtorEq, if_false]
    exact h
  | @answered chatId text k' d hget hstatus =>
    simp only [reduceCtorEq, if_false]
    obtain ⟨hk', -⟩ := hg.registered.live_of_getPendingByChat hget
    unfold Settles
    rw [answer_calls]
    refine h.set hk' (fun _ => le_rfl) fun _ happroved => ?_
    rw [hstatus] at happroved
    cases happroved
  | noTimer =>
    simp only [reduceCtorEq, if_false]
    exact h
  | @expired k' d hk' hlive =>
    simp only [reduceCtorEq, if_false]
    exact h.set hk' (fun _ => le_rfl) fun _ happroved hstage => ⟨happroved, hstage⟩
  | @stays k' hpending =>
    split
    · next heq =>
      obtain rfl : k' = k := by simpa using heq
      obtain ⟨c, hk, happroved, hstage⟩ := h
      refine ⟨c, hk, happroved, hstage.imp_right fun hlive => ?_⟩
      have hstatus := hpending c hk hlive.1
      rw [happroved] at hstatus
      cases hstatus
    · exact h
  | @moved k' d d' hk' hlive hlive' hsame hrank hexpired =>
    have hnot : k' ≠ k → Event.proceed k' ≠ .proceed k := by simp
    refine h.set hk' (fun hne => by rw [if_neg (hnot hne)]) fun heq happroved hstage => ?_
    subst heq
    rw [if_pos rfl]
    refine ⟨(congrArg PendingConfirmation.status hsame).trans happroved, ?_⟩
    rcases hstage with hreturned | ⟨-, hle⟩
    · simp [Call.live, hreturned] at hlive
    · exact .inr ⟨hlive', by omega⟩
  | @finished k' d hk' hlive hdone =>
    have hnot : k' ≠ k → Event.proceed k' ≠ .proceed k := by simp
    unfold Settles
    rw [finish_calls]
    refine h.set hk' (fun hne => by rw [if_neg (hnot hne)]) fun heq happroved hstage => ?_
    -- the timer has not fired, so the call returns its status
    have hexpired := ((hg.outcome k' d hk').answered hlive (by simp [happroved])).1
    rw [Call.ended, hexpired]
    exact ⟨happroved, .inl (congrArg Stage.returned happroved)⟩

end ConfirmationGate

/-! ## Every run -/

section Runs

open ConfirmationGate

variable {cfg : Config}

theorem counted_empty : Counted cfg {} := by
  refine ⟨⟨List.nodup_nil, ?_, ?_⟩, ?_, rfl, rfl, rfl, rfl, rfl⟩
  · rintro taskId k ⟨⟩
  · rintro k c ⟨⟩
  · rintro k c ⟨⟩

theorem counted_history {events : List Event} (h : Admitted (ConfirmationGate.step cfg) (NoRace cfg) {} events) :
    Counted cfg (history cfg events) :=
  h.invariant (Counted cfg) counted_empty fun _ _ hg he => hg.step he

theorem settles_run {k steps : Nat} {g : ConfirmationGate} {events : List Event} (hg : Counted cfg g)
    (h : Admitted (ConfirmationGate.step cfg) (NoRace cfg) g events) (hsettles : Settles k steps g) :
    Settles k (steps - events.count (.proceed k)) (run (ConfirmationGate.step cfg) g events) := by
  induction events generalizing g steps with
  | nil => exact hsettles
  | cons e events ih =>
    have hnext := ih (hg.step h.1) h.2 (hsettles.step hg h.1)
    rw [Lib.run_cons]
    rw [List.count_cons]
    by_cases heq : e = .proceed k
    · rw [if_pos heq] at hnext
      rw [heq, beq_self_eq_true, if_pos rfl]
      rw [heq] at hnext
      have hle : steps - 1 - events.count (.proceed k) = steps - (events.count (.proceed k) + 1) := by omega
      rwa [hle] at hnext
    · rw [if_neg heq] at hnext
      rw [if_neg (by simpa using heq)]
      exact hnext

/-- Outcomes and counters agree with the answers, in all of a run. -/
structure Consistent (cfg : Config) (events : List Event) : Prop where
  /-- After an approving answer that was taken, the call returns `APPROVED` if it returns, and it
  does so within three steps of its own. -/
  outcome : ∀ before chatId text after k c, events = before ++ .respond chatId text :: after →
    approves text = true → (history cfg before).getPendingByChat chatId = some (k, c) → c.status = .pending →
      ∃ d, (history cfg events).calls[k]? = some d ∧ (d.live = false → d.stage = .returned .approved) ∧
        (3 ≤ after.count (.proceed k) → d.stage = .returned .approved)
  counters : ∀ before, before <+: events → (history cfg before).Quiescent →
    (history cfg before).totalRequests =
      (history cfg before).totalAutoApproved + (history cfg before).totalApproved +
        (history cfg before).totalRejected + (history cfg before).totalTimeouts + (history cfg before).pendingCount

theorem Stage.rank_le (stage : Stage) : stage.rank ≤ 3 := by
  cases stage <;> simp [Stage.rank]

theorem confirmation_outcomes_consistent (cfg : Config) (events : List Event)
    (h : Admitted (ConfirmationGate.step cfg) (NoRace cfg) {} events) : Consistent cfg events := by
  refine ⟨fun before chatId text after k c hsplit htext hget hstatus => ?_, fun before hbefore hquiescent => ?_⟩
  · subst hsplit
    obtain ⟨hbefore, he, hafter⟩ := Lib.admitted_append.mp h
    have hg := counted_history hbefore
    obtain ⟨hk, hlive⟩ := hg.registered.live_of_getPendingByChat hget
    have hsettles : Settles k 3 ((history cfg before).step cfg (.respond chatId text)) := by
      refine ⟨c.answered text .approved, ?_, rfl, .inr ⟨hlive, Stage.rank_le _⟩⟩
      rw [ConfirmationGate.step, handleResponse_calls hget hstatus, if_pos htext,
        List.getElem?_set_self (List.getElem?_eq_some_iff.mp hk).1]
    obtain ⟨d, hd, -, hstage⟩ := settles_run (hg.step he) hafter hsettles
    refine ⟨d, ?_, fun hdead => ?_, fun hcount => ?_⟩
    · rw [← hd]
      unfold history run
      rw [List.foldl_append, List.foldl_cons]
    · refine hstage.resolve_right fun hlater => ?_
      rw [hlater.1] at hdead
      cases hdead
    · refine hstage.resolve_right fun hlater => ?_
      have hrank : d.stage.rank ≠ 0 := by
        intro hzero
        have hlive' := hlater.1
        unfold Call.live at hlive'
        cases hd' : d.stage with
        | returned result => simp [hd'] at hlive'
        | _ => simp [hd', Stage.rank] at hzero
      omega
  · obtain ⟨after, rfl⟩ := hbefore
    exact (counted_history (Lib.admitted_append.mp h).1).counters_agree hquiescent

end Runs

/-! A call that returns its answer, and one whose timer fires before it can. -/

theorem approved_call_consistent :
    Consistent {} [.request "a" 7 "high", .proceed 0, .respond 7 "ok", .proceed 0] := by
  refine confirmation_outcomes_consistent {} _ ⟨.inr rfl, trivial, ?_, trivial, trivial⟩
  rintro k c hget -
  obtain ⟨rfl, rfl⟩ := Prod.mk.inj (Option.some.inj hget)
  exact ⟨rfl, by decide⟩

theorem approved_call_times_out : ¬∀ cfg events, Consistent cfg events := by
  intro h
  obtain ⟨d, hd, hreturned, -⟩ :=
    (h {} [.request "a" 7 "high", .proceed 0, .respond 7 "ok", .timer 0, .proceed 0]).outcome
      [.request "a" 7 "high", .proceed 0] 7 "ok" [.timer 0, .proceed 0] 0 _ rfl (by decide +kernel) rfl rfl
  have hend : (history {} [.request "a" 7 "high", .proceed 0, .respond 7 "ok", .timer 0, .proceed 0]).calls[0]?.map
      (fun c => (c.live, c.stage)) = some (false, .returned .timeout) := by decide +kernel
  rw [hd] at hend
  obtain ⟨hdead, hstage⟩ := Prod.mk.inj (Option.some.inj hend)
  rw [hreturned hdead] at hstage
  cases hstage

end Occp.Adapters
