import Occp.Adapters.ConfirmationGate

/-!
# Entries of calls that raise (`adapters/confirmation_gate.py`)

`request_confirmation` removes its entries after the wait, and nothing removes them when it is
cancelled before, or when its sender raises. A store that raises is caught.
-/

namespace Occp.Adapters

open Lib (run Admitted forall_prefix_iff_admitted getElem?_set_cases getElem?_concat_cases getElem?_concat_of_some)

/-- A gate, and the calls that have raised. -/
structure FallibleGate where
  gate : ConfirmationGate := {}
  raised : List Nat := []

inductive FallibleEvent where
  | plain (e : Event)
  /-- The call is cancelled where it waits, or its sender raises. -/
  | fail (k : Nat)

namespace FallibleGate

/-- The call has neither returned nor raised. -/
def Running (s : FallibleGate) (k : Nat) (c : Call) : Prop := s.gate.calls[k]? = some c ∧ c.live = true ∧ k ∉ s.raised

def isRunning (s : FallibleGate) (k : Nat) : Bool := (s.gate.calls[k]?).any Call.live && !s.raised.contains k

/-- A call that has raised does not go on. -/
def step (cfg : Config) (s : FallibleGate) : FallibleEvent → FallibleGate
  | .plain (.proceed k) => if k ∈ s.raised then s else { s with gate := s.gate.step cfg (.proceed k) }
  | .plain (.timer k) => if k ∈ s.raised then s else { s with gate := s.gate.step cfg (.timer k) }
  | .plain e => { s with gate := s.gate.step cfg e }
  | .fail k => if s.isRunning k then { s with raised := k :: s.raised } else s

/-- Neither map has an entry of a task, or of a task in a chat, that no running call is for. -/
structure Cleaned (s : FallibleGate) : Prop where
  pending : ∀ taskId, (∀ k c, s.Running k c → c.taskId ≠ taskId) → s.gate.pending.get? taskId = none
  chat : ∀ chatId taskId, (∀ k c, s.Running k c → c.taskId = taskId → c.chatId ≠ chatId) →
    s.gate.chatToTask chatId ≠ some taskId

/-- A call that raises has no entry any more, unless another running call is for the same. -/
def Meets (s : FallibleGate) : FallibleEvent → Prop
  | .plain _ => True
  | .fail k => ∀ c, s.Running k c →
    (s.gate.pending.get? c.taskId ≠ none → ∃ k' c', k' ≠ k ∧ s.Running k' c' ∧ c'.taskId = c.taskId) ∧
      (s.gate.chatToTask c.chatId = some c.taskId →
        ∃ k' c', k' ≠ k ∧ s.Running k' c' ∧ c'.taskId = c.taskId ∧ c'.chatId = c.chatId)

variable {cfg : Config} {s s' : FallibleGate} {k : Nat} {c : Call}

theorem isRunning_iff : s.isRunning k = true ↔ ∃ c, s.Running k c := by
  simp only [isRunning, Running, Bool.and_eq_true, Bool.not_eq_true', List.contains_eq_mem, decide_eq_false_iff_not]
  constructor
  · rintro ⟨hlive, hraised⟩
    obtain ⟨c, hc, hlive⟩ := (Option.any_eq_true ..).mp hlive
    exact ⟨c, hc, hlive, hraised⟩
  · rintro ⟨c, hc, hlive, hraised⟩
    exact ⟨(Option.any_eq_true ..).mpr ⟨c, hc, hlive⟩, hraised⟩

/-- An entry is there for a running call. -/
structure Held (s : FallibleGate) : Prop where
  pending : ∀ taskId, s.gate.pending.get? taskId ≠ none → ∃ k c, s.Running k c ∧ c.taskId = taskId
  chat : ∀ chatId taskId, s.gate.chatToTask chatId = some taskId →
    ∃ k c, s.Running k c ∧ c.taskId = taskId ∧ c.chatId = chatId

theorem cleaned_iff_held : Cleaned s ↔ Held s := by
  constructor
  · intro h
    refine ⟨fun taskId hentry => ?_, fun chatId taskId hentry => ?_⟩
    · by_contra hnone
      push Not at hnone
      exact hentry (h.pending taskId hnone)
    · by_contra hnone
      push Not at hnone
      exact h.chat chatId taskId hnone hentry
  · intro h
    refine ⟨fun taskId hnone => ?_, fun chatId taskId hnone hentry => ?_⟩
    · by_contra hentry
      obtain ⟨k, c, hc, htask⟩ := h.pending taskId hentry
      exact hnone k c hc htask
    · obtain ⟨k, c, hc, htask, hchat⟩ := h.chat chatId taskId hentry
      exact hnone k c hc htask hchat

/-! ## Steps of the gate -/

/-- A call still runs, for the same task and in the same chat. -/
def StillRuns (s' : FallibleGate) (k : Nat) (c : Call) : Prop :=
  ∃ c', s'.Running k c' ∧ c'.taskId = c.taskId ∧ c'.chatId = c.chatId

theorem Held.of_stillRuns (h : Held s) (hruns : ∀ k c, s.Running k c → s'.StillRuns k c)
    (hpending : s'.gate.pending = s.gate.pending) (hchat : s'.gate.chatToTask = s.gate.chatToTask) : Held s' := by
  refine ⟨fun taskId hentry => ?_, fun chatId taskId hentry => ?_⟩
  · rw [hpending] at hentry
    obtain ⟨k, c, hc, htask⟩ := h.pending taskId hentry
    obtain ⟨c', hc', htask', -⟩ := hruns k c hc
    exact ⟨k, c', hc', htask'.trans htask⟩
  · rw [hchat] at hentry
    obtain ⟨k, c, hc, htask, hchat⟩ := h.chat chatId taskId hentry
    obtain ⟨c', hc', htask', hchat'⟩ := hruns k c hc
    exact ⟨k, c', hc', htask'.trans htask, hchat'.trans hchat⟩

variable {gate : ConfirmationGate}

/-- One call changes, and still runs if it did. -/
theorem stillRuns_set (c' : Call) (hk : s.gate.calls[k]? = some c) (hlive : c.live = true → c'.live = true)
    (hsame : c'.confirmation.taskId = c.taskId ∧ c'.confirmation.chatId = c.chatId)
    (hcalls : gate.calls = s.gate.calls.set k c') (k' : Nat) (d : Call) (hd : s.Running k' d) :
    StillRuns { s with gate } k' d := by
  obtain ⟨hk', hdlive, hraised⟩ := hd
  have hlt := (List.getElem?_eq_some_iff.mp hk).1
  by_cases heq : k' = k
  · subst heq
    obtain rfl : c = d := Option.some.inj (hk.symm.trans hk')
    exact ⟨c', ⟨by rw [hcalls, List.getElem?_set_self hlt], hlive hdlive, hraised⟩, hsame⟩
  · exact ⟨d, ⟨by rw [hcalls, List.getElem?_set_ne (Ne.symm heq), hk'], hdlive, hraised⟩, rfl, rfl⟩

/-- Every call that has raised is one. -/
def Known (s : FallibleGate) : Prop := ∀ k ∈ s.raised, k < s.gate.calls.length

theorem Held.register (h : Held s) (hknown : Known s) (hlive : c.live = true) :
    Held { s with gate := s.gate.register c } := by
  have hnew : Running { s with gate := s.gate.register c } s.gate.calls.length c :=
    ⟨List.getElem?_concat_length, hlive, fun hmem => Nat.lt_irrefl _ (hknown _ hmem)⟩
  have hold (k : Nat) (d : Call) (hd : s.Running k d) : Running { s with gate := s.gate.register c } k d :=
    ⟨getElem?_concat_of_some hd.1, hd.2⟩
  refine ⟨fun taskId hentry => ?_, fun chatId taskId hentry => ?_⟩
  · by_cases htask : taskId = c.taskId
    · exact ⟨_, c, hnew, htask.symm⟩
    · have hrest : s.gate.pending.get? taskId ≠ none := by
        simpa [ConfirmationGate.register, Dict.get?_set, htask] using hentry
      obtain ⟨k, d, hd, hdtask⟩ := h.pending taskId hrest
      exact ⟨k, d, hold k d hd, hdtask⟩
  · rw [ConfirmationGate.register_chatToTask] at hentry
    split at hentry
    · next hchat => exact ⟨_, c, hnew, Option.some.inj hentry, hchat.symm⟩
    · obtain ⟨k, d, hd, hboth⟩ := h.chat chatId taskId hentry
      exact ⟨k, d, hold k d hd, hboth⟩

/-- A call that is over has removed its entries, whoever made them. -/
theorem Held.finish (h : Held s) (hk : s.gate.calls[k]? = some c) : Held { s with gate := s.gate.finish k c } := by
  have hold {k' : Nat} {d : Call} (hd : s.Running k' d) (hne : k' ≠ k) :
      Running { s with gate := s.gate.finish k c } k' d := by
    refine ⟨?_, hd.2⟩
    rw [ConfirmationGate.finish_calls, List.getElem?_set_ne (Ne.symm hne)]
    exact hd.1
  have hself {d : Call} (hd : s.Running k d) : c = d := Option.some.inj (hk.symm.trans hd.1)
  refine ⟨fun taskId hentry => ?_, fun chatId taskId hentry => ?_⟩
  · dsimp only at hentry
    rw [ConfirmationGate.finish_pending, Dict.get?_pop] at hentry
    split at hentry
    · exact absurd rfl hentry
    · next htask =>
      obtain ⟨k', d, hd, hdtask⟩ := h.pending taskId hentry
      refine ⟨k', d, hold hd ?_, hdtask⟩
      rintro rfl
      rw [hself hd] at htask
      exact htask hdtask.symm
  · dsimp only at hentry
    rw [ConfirmationGate.finish_chatToTask] at hentry
    split at hentry
    · cases hentry
    · next hother =>
      obtain ⟨k', d, hd, hdtask, hdchat⟩ := h.chat chatId taskId hentry
      refine ⟨k', d, hold hd ?_, hdtask, hdchat⟩
      rintro rfl
      rw [hself hd, hdtask, hdchat] at hother
      exact hother ⟨rfl, hentry⟩

theorem Held.gate_step (h : Held s) (hknown : Known s) (e : Event) :
    Held { s with gate := s.gate.step cfg e } := by
  have hsteps := ConfirmationGate.step_steps cfg s.gate e
  generalize s.gate.step cfg e = gate at hsteps
  cases hsteps with
  | autoApproved hauto => exact ⟨h.pending, h.chat⟩
  | registered hauto hstatus hlive =>
    have hcounted : Held { s with gate := { s.gate with totalRequests := s.gate.totalRequests + 1 } } :=
      ⟨h.pending, h.chat⟩
    exact hcounted.register hknown hlive
  | ignored | noTimer | stays => exact h
  | @answered chatId text k c hget hstatus =>
    obtain ⟨-, -, -, -, hk⟩ := ConfirmationGate.getPendingByChat_some hget
    exact h.of_stillRuns
      (stillRuns_set (c.answered text (if approves text then .approved else .rejected)) hk id ⟨rfl, rfl⟩
        (ConfirmationGate.answer_calls text))
      (ConfirmationGate.answer_pending text) (ConfirmationGate.answer_chatToTask text)
  | @expired k c hk hlive =>
    exact h.of_stillRuns (stillRuns_set { c with expired := true } hk id ⟨rfl, rfl⟩ rfl) rfl rfl
  | @moved k c c' hk hlive hlive' hsame =>
    refine h.of_stillRuns (stillRuns_set c' hk (fun _ => hlive') ?_ rfl) rfl rfl
    rw [hsame]
    exact ⟨rfl, rfl⟩
  | finished hk => exact h.finish hk

theorem known_gate_step (hknown : Known s) (e : Event) : Known { s with gate := s.gate.step cfg e } := by
  have hlength : s.gate.calls.length ≤ (s.gate.step cfg e).calls.length := by
    have hsteps := ConfirmationGate.step_steps cfg s.gate e
    generalize s.gate.step cfg e = gate at hsteps
    cases hsteps with
    | registered => simp [ConfirmationGate.register]
    | answered => simp [ConfirmationGate.answer_calls]
    | expired | moved => simp [ConfirmationGate.setCall]
    | finished => simp
    | autoApproved | ignored | noTimer | stays => exact Nat.le_refl _
  exact fun k hk => (hknown k hk).trans_le hlength

/-! ## Runs -/

theorem known_step (hknown : Known s) (e : FallibleEvent) : Known (s.step cfg e) := by
  cases e with
  | plain e =>
    cases e with
    | proceed k | timer k =>
      rw [step]
      split
      · exact hknown
      · exact known_gate_step hknown _
    | request | respond => exact known_gate_step hknown _
  | fail k =>
    rw [step]
    split
    · next hruns =>
      obtain ⟨c, hk, -⟩ := isRunning_iff.mp hruns
      intro k' hk'
      rcases List.mem_cons.mp hk' with rfl | hk'
      · exact (List.getElem?_eq_some_iff.mp hk).1
      · exact hknown k' hk'
    · exact hknown

theorem held_plain (h : Held s) (hknown : Known s) (e : Event) : Held (s.step cfg (.plain e)) := by
  cases e with
  | proceed k | timer k =>
    rw [step]
    split
    · exact h
    · exact h.gate_step hknown _
  | request | respond => exact h.gate_step hknown _

theorem held_fail_iff (h : Held s) : Held (s.step cfg (.fail k)) ↔ s.Meets (.fail k) := by
  rw [step]
  split
  · next hruns =>
    obtain ⟨c, hk, hlive, hnot⟩ := isRunning_iff.mp hruns
    have hself {d : Call} (hd : s.Running k d) : d = c := Option.some.inj (hd.1.symm.trans hk)
    have hothers {k' : Nat} {d : Call} :
        Running { s with raised := k :: s.raised } k' d ↔ k' ≠ k ∧ s.Running k' d := by
      simp only [Running, List.mem_cons, not_or]
      tauto
    constructor
    · intro hheld d hd
      obtain rfl := hself hd
      refine ⟨fun hentry => ?_, fun hentry => ?_⟩
      · obtain ⟨k', d', hd', htask⟩ := hheld.pending d.taskId hentry
        exact ⟨k', d', (hothers.mp hd').1, (hothers.mp hd').2, htask⟩
      · obtain ⟨k', d', hd', hboth⟩ := hheld.chat d.chatId d.taskId hentry
        exact ⟨k', d', (hothers.mp hd').1, (hothers.mp hd').2, hboth⟩
    · intro hmeets
      obtain ⟨htask, hchat⟩ := hmeets c ⟨hk, hlive, hnot⟩
      refine ⟨fun taskId hentry => ?_, fun chatId taskId hentry => ?_⟩
      · obtain ⟨k', d, hd, rfl⟩ := h.pending taskId hentry
        by_cases heq : k' = k
        · subst heq
          obtain rfl := hself hd
          obtain ⟨k', d', hne, hd', hdtask⟩ := htask hentry
          exact ⟨k', d', hothers.mpr ⟨hne, hd'⟩, hdtask⟩
        · exact ⟨k', d, hothers.mpr ⟨heq, hd⟩, rfl⟩
      · obtain ⟨k', d, hd, rfl, rfl⟩ := h.chat chatId taskId hentry
        by_cases heq : k' = k
        · subst heq
          obtain rfl := hself hd
          obtain ⟨k', d', hne, hd', hboth⟩ := hchat hentry
          exact ⟨k', d', hothers.mpr ⟨hne, hd'⟩, hboth⟩
        · exact ⟨k', d, hothers.mpr ⟨heq, hd⟩, rfl, rfl⟩
  · next hruns =>
    refine iff_of_true h fun c hc => ?_
    exact absurd (isRunning_iff.mpr ⟨c, hc⟩) hruns

/-- No task has an entry that its calls left behind, in any state of a run, just when every call
that raises in it leaves none that is its own. -/
theorem cleaned_iff_meets (cfg : Config) (events : List FallibleEvent) :
    (∀ before, before <+: events → Cleaned (run (step cfg) {} before)) ↔ Admitted (step cfg) Meets {} events := by
  simp only [cleaned_iff_held]
  refine @forall_prefix_iff_admitted _ _ _ _ _ Known (fun s e => known_step (e := e)) (fun s e hknown h => ?_) _ ?_ ?_ events
  · cases e with
    | plain e => exact iff_of_true (held_plain h hknown e) trivial
    | fail k => exact held_fail_iff h
  · exact fun k hk => absurd hk List.not_mem_nil
  · exact ⟨fun taskId hentry => absurd rfl hentry, fun chatId taskId hentry => by cases hentry⟩

/-- The sender raises on the prompt, and both entries stay. -/
theorem entries_left_by_raising_sender :
    let s := run (step {}) {} [.plain (.request "deploy" 7 "high"), .fail 0]
    s.isRunning 0 = false ∧ s.gate.calls.length = 1 ∧ s.gate.pending.get? "deploy" = some 0 ∧
      s.gate.chatToTask 7 = some "deploy" := by
  decide

end FallibleGate

end Occp.Adapters
