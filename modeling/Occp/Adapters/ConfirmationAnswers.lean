import Occp.Adapters.ConfirmationGate

/-!
# Answers reach the request they are for

The two maps lead from a chat to its open request as long as a chat has one open request, and a
task one call.
-/

namespace Occp.Adapters

open Lib (Admitted getElem?_set_cases getElem?_concat_cases getElem?_concat_of_some)

/-- Neither resolved nor timed out. -/
def Call.Open (c : Call) : Prop := c.live = true ∧ c.status = .pending ∧ c.expired = false

namespace ConfirmationGate

variable (cfg : Config) (g : ConfirmationGate)

/-- A response from the chat of an open request resolves that request. -/
def Answerable : Prop :=
  ∀ (k : Nat) c, g.calls[k]? = some c → c.Open → ∀ text,
    (g.handleResponse c.chatId text).1 = true ∧
      (g.handleResponse c.chatId text).2.calls =
        g.calls.set k (c.answered text (if approves text then .approved else .rejected))

/-- A consumed response resolves one request that was pending for its chat, and touches no other. -/
def ConsumedInChat : Prop :=
  ∀ chatId text, (g.handleResponse chatId text).1 = true →
    ∃ (k : Nat) (c : Call), g.calls[k]? = some c ∧ c.chatId = chatId ∧ c.live = true ∧ c.status = .pending ∧
      (g.handleResponse chatId text).2.calls =
        g.calls.set k (c.answered text (if approves text then .approved else .rejected))

/-- A request of its own task, for a chat that has none open; and no approval before the prompt. -/
def OneAtATime : Event → Prop
  | .request taskId chatId riskLevel =>
    cfg.autoApproves riskLevel = true ∨
      taskId ≠ "" ∧ g.pending.get? taskId = none ∧
        ∀ (k : Nat) c, g.calls[k]? = some c → c.Open → c.chatId ≠ chatId
  | .respond chatId text =>
    approves text = true → ∀ k c, g.getPendingByChat chatId = some (k, c) → c.status = .pending → c.prompted = true
  | .timer _ | .proceed _ => True

/-- Both maps lead where they should. -/
structure Routed : Prop where
  registered : g.Registered
  ofChat : ∀ chatId taskId, g.chatToTask chatId = some taskId →
    ∃ (k : Nat) (c : Call), g.pending.get? taskId = some k ∧ g.calls[k]? = some c ∧ c.chatId = chatId
  ofOpen : ∀ (k : Nat) c, g.calls[k]? = some c → c.Open → g.chatToTask c.chatId = some c.taskId ∧ c.taskId ≠ ""

variable {cfg g} {k : Nat} {c : Call}

namespace Routed

theorem getPendingByChat (hg : g.Routed) (hk : g.calls[k]? = some c) (hopen : c.Open) :
    g.getPendingByChat c.chatId = some (k, c) := by
  obtain ⟨hchat, hne⟩ := hg.ofOpen k c hk hopen
  unfold ConfirmationGate.getPendingByChat getPending
  simp [hchat, hne, hg.registered.ofLive k c hk hopen.1, hk]

theorem answerable (hg : g.Routed) : g.Answerable := by
  intro k c hk hopen text
  have hget := hg.getPendingByChat hk hopen
  exact ⟨(handleResponse_eq_true_iff _ _).mpr ⟨k, c, hget, hopen.2.1⟩, handleResponse_calls hget hopen.2.1⟩

theorem of_getPendingByChat (hg : g.Routed) {chatId : Int} (hget : g.getPendingByChat chatId = some (k, c)) :
    g.calls[k]? = some c ∧ c.chatId = chatId ∧ c.live = true := by
  obtain ⟨taskId, hchat, -, hentry, hk⟩ := getPendingByChat_some hget
  obtain ⟨k', c', hentry', hk', hchatId⟩ := hg.ofChat chatId taskId hchat
  obtain rfl : k = k' := Option.some.inj (hentry.symm.trans hentry')
  obtain rfl : c = c' := Option.some.inj (hk.symm.trans hk')
  exact ⟨hk, hchatId, (hg.registered.live_of_getPendingByChat hget).2⟩

theorem consumedInChat (hg : g.Routed) : g.ConsumedInChat := by
  intro chatId text hconsumed
  obtain ⟨k, c, hget, hstatus⟩ := (handleResponse_eq_true_iff _ _).mp hconsumed
  obtain ⟨hk, hchatId, hlive⟩ := hg.of_getPendingByChat hget
  exact ⟨k, c, hk, hchatId, hlive, hstatus, handleResponse_calls hget hstatus⟩

/-! ## Each step keeps both maps right -/

theorem register (hg : g.Routed) (hne : c.taskId ≠ "") (hnone : g.pending.get? c.taskId = none)
    (hopen : ∀ (k : Nat) d, g.calls[k]? = some d → d.Open → d.chatId ≠ c.chatId) (hlive : c.live = true) :
    (g.register c).Routed := by
  refine ⟨hg.registered.register hnone hlive, fun chatId taskId hchat => ?_, fun k d hd hdopen => ?_⟩
  · rw [register_chatToTask] at hchat
    split at hchat
    · next heq =>
      obtain rfl := Option.some.inj hchat
      refine ⟨g.calls.length, c, Dict.get?_set_self _ _ _, List.getElem?_concat_length, heq.symm⟩
    · obtain ⟨k, d, hentry, hd, hchatId⟩ := hg.ofChat chatId taskId hchat
      refine ⟨k, d, ?_, ?_, hchatId⟩
      · rw [ConfirmationGate.register, Dict.get?_set_of_ne, hentry]
        rintro rfl
        rw [hnone] at hentry
        cases hentry
      · exact getElem?_concat_of_some hd
  · rw [register_chatToTask]
    rcases getElem?_concat_cases hd with ⟨-, rfl⟩ | hd'
    · rw [if_pos rfl]
      exact ⟨rfl, hne⟩
    · rw [if_neg (hopen k d hd' hdopen)]
      exact hg.ofOpen k d hd' hdopen

theorem update {g' : ConfirmationGate} {c' : Call} (hg : g.Routed) (hk : g.calls[k]? = some c)
    (hcalls : g'.calls = g.calls.set k c') (hregistered : g'.Registered) (hpending : g'.pending = g.pending)
    (hchats : g'.chatToTask = g.chatToTask) (hchat : c'.chatId = c.chatId) (htask : c'.taskId = c.taskId)
    (hopen : c'.Open → c.Open) : g'.Routed := by
  have hlt := (List.getElem?_eq_some_iff.mp hk).1
  refine ⟨hregistered, fun chatId taskId h => ?_, fun k' d hd hdopen => ?_⟩
  · rw [hchats] at h
    obtain ⟨k', d, hentry, hd, hchatId⟩ := hg.ofChat chatId taskId h
    rw [hpending, hcalls]
    by_cases heq : k' = k
    · subst heq
      obtain rfl : c = d := Option.some.inj (hk.symm.trans hd)
      exact ⟨k', c', hentry, List.getElem?_set_self hlt, hchat.trans hchatId⟩
    · exact ⟨k', d, hentry, by rw [List.getElem?_set_ne (Ne.symm heq), hd], hchatId⟩
  · rw [hcalls] at hd
    rw [hchats]
    rcases getElem?_set_cases hd with ⟨-, rfl⟩ | ⟨-, hold⟩
    · rw [hchat, htask]
      exact hg.ofOpen k c hk (hopen hdopen)
    · exact hg.ofOpen k' d hold hdopen

theorem finish (hg : g.Routed) (hk : g.calls[k]? = some c) (hlive : c.live = true) : (g.finish k c).Routed := by
  have hentry := hg.registered.ofLive k c hk hlive
  refine ⟨hg.registered.finish hk hlive, fun chatId taskId h => ?_, fun k' d hd hdopen => ?_⟩
  · rw [finish_chatToTask] at h
    split at h
    · cases h
    · next hother =>
      obtain ⟨k', d, hentry', hd, hchatId⟩ := hg.ofChat chatId taskId h
      have hne : taskId ≠ c.taskId := by
        rintro rfl
        obtain rfl : k = k' := Option.some.inj (hentry.symm.trans hentry')
        obtain rfl : c = d := Option.some.inj (hk.symm.trans hd)
        exact hother ⟨hchatId.symm, hchatId ▸ h⟩
      have hne' : k' ≠ k := by
        rintro rfl
        obtain ⟨d', hd', -, htask⟩ := hg.registered.ofEntry taskId k' hentry'
        obtain rfl : c = d' := Option.some.inj (hk.symm.trans hd')
        exact hne htask.symm
      refine ⟨k', d, ?_, ?_, hchatId⟩
      · rw [finish_pending, Dict.get?_pop, if_neg hne, hentry']
      · rw [finish_calls, List.getElem?_set_ne hne'.symm, hd]
  · rw [finish_calls] at hd
    rcases getElem?_set_cases hd with ⟨-, rfl⟩ | ⟨hne, hold⟩
    · have hdead := hdopen.1
      rw [Call.ended_live] at hdead
      cases hdead
    · obtain ⟨hchat, htask⟩ := hg.ofOpen k' d hold hdopen
      refine ⟨?_, htask⟩
      rw [finish_chatToTask, if_neg]
      · exact hchat
      · rintro ⟨hsame, hc⟩
        -- both would have the entry of the task that the chat leads to
        rw [hsame, hc] at hchat
        have hentry' := hg.registered.ofLive k' d hold hdopen.1
        rw [← Option.some.inj hchat, hentry] at hentry'
        exact hne (Option.some.inj hentry').symm

theorem step (hg : g.Routed) {e : Event} (he : OneAtATime cfg g e) : (g.step cfg e).Routed := by
  have hunclaimed : Unclaimed cfg g e := by
    cases e with
    | request taskId chatId riskLevel => exact he.imp_right (·.2.1)
    | respond chatId text => trivial
    | timer k => trivial
    | proceed k => trivial
  have hsteps := step_steps cfg g e
  have hregistered := hg.registered.step hunclaimed
  generalize g.step cfg e = g' at hsteps hregistered ⊢
  cases hsteps with
  | autoApproved hauto => exact ⟨hregistered, hg.ofChat, hg.ofOpen⟩
  | registered hauto hstatus hlive =>
    rcases he with hauto' | ⟨hne, hnone, hopen⟩
    · rw [hauto'] at hauto
      cases hauto
    · have hg' : ConfirmationGate.Routed { g with totalRequests := g.totalRequests + 1 } :=
        ⟨⟨hg.registered.nodup, hg.registered.ofEntry, hg.registered.ofLive⟩, hg.ofChat, hg.ofOpen⟩
      exact hg'.register hne hnone hopen hlive
  | ignored hnone => exact hg
  | @answered chatId text k c hget hstatus =>
    obtain ⟨hk, -, -⟩ := hg.of_getPendingByChat hget
    refine hg.update hk (answer_calls text) hregistered (answer_pending text) (answer_chatToTask text) (by simp)
      (by simp) fun hopen => absurd hopen.2.1 ?_
    rw [Call.answered_status]
    split <;> simp
  | noTimer => exact hg
  | expired hk hlive => exact hg.update hk rfl hregistered rfl rfl rfl rfl fun hopen => absurd hopen.2.2 (by simp)
  | stays hpending => exact hg
  | @moved k c c' hk hlive hlive' hsame hrank hexpired =>
    have hchat : c'.chatId = c.chatId := congrArg PendingConfirmation.chatId hsame
    have htask : c'.taskId = c.taskId := congrArg PendingConfirmation.taskId hsame
    refine hg.update hk rfl hregistered rfl rfl hchat htask fun hopen => ⟨hlive, ?_, ?_⟩
    · rw [← hopen.2.1]
      exact congrArg PendingConfirmation.status hsame.symm
    · rcases hexpired with heq | ⟨hnew, -⟩
      · exact heq ▸ hopen.2.2
      · exact absurd hopen.2.2 (by simp [hnew])
  | finished hk hlive hdone => exact hg.finish hk hlive

end Routed

end ConfirmationGate

/-! ## Where an approval comes from -/

/-- The call has been approved, or has returned that it was. -/
def Call.Approved (c : Call) : Prop := c.status = .approved ∨ c.stage = .returned .approved

def ApprovedAt (k : Nat) (chatId : Int) (g : ConfirmationGate) : Prop :=
  ∃ c, g.calls[k]? = some c ∧ c.chatId = chatId ∧ c.Approved

theorem Call.Approved.of_ended {c : Call} (h : c.ended.Approved) : c.status = .approved := by
  unfold Call.ended at h
  split at h
  · rcases h with hstatus | hstage
    · cases hstatus
    · cases hstage
  · rcases h with hstatus | hstage
    · exact hstatus
    · injection hstage

theorem Call.not_approved_of_live {c : Call} (hlive : c.live = true) (hstatus : c.status ≠ .approved) :
    ¬c.Approved := by
  rintro (hstatus' | hstage)
  · exact hstatus hstatus'
  · simp [Call.live, hstage] at hlive

/-- A step approves a call only as an approving answer from its chat, after its prompt. -/
theorem approvedAt_turn {cfg : Config} {g : ConfirmationGate} {e : Event} (hg : g.Routed)
    (he : g.OneAtATime cfg e) {k : Nat} {chatId : Int} (hbefore : ¬ApprovedAt k chatId g)
    (hafter : ApprovedAt k chatId (g.step cfg e)) :
    ∃ text c, e = .respond chatId text ∧ approves text = true ∧ g.calls[k]? = some c ∧ c.prompted = true := by
  have hsteps := ConfirmationGate.step_steps cfg g e
  generalize g.step cfg e = g' at hsteps hafter
  obtain ⟨d, hd, hchat, happroved⟩ := hafter
  cases hsteps with
  | autoApproved hauto => exact absurd ⟨d, hd, hchat, happroved⟩ hbefore
  | @registered riskLevel c hauto hstatus hlive =>
    rcases getElem?_concat_cases hd with ⟨-, rfl⟩ | hold
    · exact absurd happroved (Call.not_approved_of_live hlive (by simp [hstatus]))
    · exact absurd ⟨d, hold, hchat, happroved⟩ hbefore
  | ignored hnone => exact absurd ⟨d, hd, hchat, happroved⟩ hbefore
  | @answered chatId' text k' c hget hstatus =>
    obtain ⟨hk, hchatId, hlive⟩ := hg.of_getPendingByChat hget
    rw [ConfirmationGate.answer_calls] at hd
    rcases getElem?_set_cases hd with ⟨rfl, rfl⟩ | ⟨-, hold⟩
    · obtain rfl : chatId' = chatId := hchatId.symm.trans hchat
      have htext : approves text = true := by
        by_contra htext
        refine absurd happroved (Call.not_approved_of_live hlive ?_)
        rw [Call.answered_status, if_neg htext]
        simp
      exact ⟨text, c, rfl, htext, hk, he htext k c hget hstatus⟩
    · exact absurd ⟨d, hold, hchat, happroved⟩ hbefore
  | noTimer => exact absurd ⟨d, hd, hchat, happroved⟩ hbefore
  | expired hk hlive =>
    rcases getElem?_set_cases hd with ⟨rfl, rfl⟩ | ⟨-, hold⟩
    · exact absurd ⟨_, hk, hchat, happroved⟩ hbefore
    · exact absurd ⟨d, hold, hchat, happroved⟩ hbefore
  | stays hpending => exact absurd ⟨d, hd, hchat, happroved⟩ hbefore
  | moved hk hlive hlive' hsame hrank hexpired =>
    rcases getElem?_set_cases hd with ⟨rfl, rfl⟩ | ⟨-, hold⟩
    · have hstatus : d.status = .approved := by
        by_contra hstatus
        exact Call.not_approved_of_live hlive' hstatus happroved
      refine absurd ⟨_, hk, ?_, .inl ?_⟩ hbefore
      · exact (congrArg PendingConfirmation.chatId hsame).symm.trans hchat
      · exact (congrArg PendingConfirmation.status hsame).symm.trans hstatus
    · exact absurd ⟨d, hold, hchat, happroved⟩ hbefore
  | finished hk hlive hdone =>
    rw [ConfirmationGate.finish_calls] at hd
    rcases getElem?_set_cases hd with ⟨rfl, rfl⟩ | ⟨-, hold⟩
    · refine absurd ⟨_, hk, ?_, .inl happroved.of_ended⟩ hbefore
      rw [← hchat, Call.ended_chatId]
    · exact absurd ⟨d, hold, hchat, happroved⟩ hbefore

/-! ## Every run -/

/-- Confirmations reach the right task, in all of a run. -/
structure RightTask (cfg : Config) (events : List Event) : Prop where
  answerable : ∀ before, before <+: events → (history cfg before).Answerable
  consumedInChat : ∀ before, before <+: events → (history cfg before).ConsumedInChat
  approvedByAnswer : ∀ (k : Nat) c, (history cfg events).calls[k]? = some c → c.Approved →
    ∃ before text after d, events = before ++ .respond c.chatId text :: after ∧ approves text = true ∧
      (history cfg before).calls[k]? = some d ∧ d.prompted = true

section Runs

variable {cfg : Config}

theorem routed_empty : ConfirmationGate.Routed {} := by
  refine ⟨⟨List.nodup_nil, ?_, ?_⟩, ?_, ?_⟩
  · rintro taskId k ⟨⟩
  · rintro k c ⟨⟩
  · rintro chatId taskId ⟨⟩
  · rintro k c ⟨⟩

theorem routed_history {events : List Event}
    (h : Admitted (ConfirmationGate.step cfg) (ConfirmationGate.OneAtATime cfg) {} events) :
    (history cfg events).Routed :=
  h.invariant ConfirmationGate.Routed routed_empty fun _ _ hg he => hg.step he

theorem confirmations_reach_their_task (cfg : Config) (events : List Event)
    (h : Admitted (ConfirmationGate.step cfg) (ConfirmationGate.OneAtATime cfg) {} events) : RightTask cfg events := by
  have hbefores : ∀ before, before <+: events → (history cfg before).Routed := by
    rintro before ⟨after, rfl⟩
    exact routed_history (Lib.admitted_append.mp h).1
  refine ⟨fun before hbefore => (hbefores before hbefore).answerable,
    fun before hbefore => (hbefores before hbefore).consumedInChat, fun k c hk happroved => ?_⟩
  have hnone : ¬ApprovedAt k c.chatId {} := by
    rintro ⟨d, hd, -⟩
    cases hd
  obtain ⟨before, e, after, rfl, hbefore, hafter⟩ := Lib.run_turn hnone ⟨c, hk, rfl, happroved⟩
  obtain ⟨hadmitted, he, -⟩ := Lib.admitted_append.mp h
  obtain ⟨text, d, rfl, htext, hd, hprompted⟩ := approvedAt_turn (routed_history hadmitted) he hbefore hafter
  exact ⟨before, text, after, d, rfl, htext, hd, hprompted⟩

end Runs

/-! A request that is answered, and one that another request of its chat takes the answer from. -/

def answeredRequest : List Event := [.request "a" 7 "high", .proceed 0, .respond 7 "ok", .proceed 0]

theorem answeredRequest_right : RightTask {} answeredRequest := by
  refine confirmations_reach_their_task {} answeredRequest ⟨.inr ⟨by decide, rfl, ?_⟩, trivial, ?_, trivial, trivial⟩
  · rintro k c ⟨⟩
  · rintro - k c hget -
    obtain ⟨rfl, rfl⟩ := Prod.mk.inj (Option.some.inj hget)
    rfl

def secondRequest : List Event := [.request "a" 7 "high", .proceed 0, .request "b" 7 "high"]

theorem first_request_unanswerable : ¬∀ cfg events, RightTask cfg events := by
  intro h
  have hcalls := ((h {} secondRequest).answerable secondRequest (List.prefix_refl _) 0 _ rfl ⟨rfl, rfl, rfl⟩ "ok").2
  exact absurd (congrArg (fun calls => calls[1]?.map (·.status)) hcalls) (by decide +kernel)

end Occp.Adapters
