import Mathlib.Logic.Function.Basic
import Occp.Lib.Places
import Occp.Lib.Runs
import Occp.Text

/-!
# The confirmation gate (`adapters/confirmation_gate.py`)

Calls of `request_confirmation` wait side by side for answers from their chats. A step takes one
coroutine from one of its awaits to the next. No sender raises, and no call is cancelled.
-/

namespace Occp.Adapters

open Lib (run Admitted getElem?_set_cases getElem?_concat_cases getElem?_concat_of_some)

inductive ConfirmationStatus where
  | pending
  | approved
  | rejected
  | timeout
  | autoApproved
  deriving DecidableEq

structure PendingConfirmation where
  taskId : String
  chatId : Int
  riskLevel : String
  /-- The event is set when this is not `pending` any more. -/
  status : ConfirmationStatus := .pending
  responseText : String := ""

/-- Where a call of `request_confirmation` stands. -/
inductive Stage where
  | saving
  | sending
  | waiting (prompted : Bool)
  | returned (result : ConfirmationStatus)
  deriving DecidableEq

structure Call where
  confirmation : PendingConfirmation
  stage : Stage
  /-- The timer of `wait_for` has fired. -/
  expired : Bool := false

structure Config where
  sender : Bool := true
  timeout : Int := 300
  autoApproveRiskLevels : List String := []
  approvalStore : Bool := false

/-- The entries of `pending` are places in `calls`, for the objects that Python shares. -/
structure ConfirmationGate where
  calls : List Call := []
  pending : Dict Nat := []
  chatToTask : Int → Option String := fun _ => none
  totalRequests : Nat := 0
  totalAutoApproved : Nat := 0
  totalApproved : Nat := 0
  totalRejected : Nat := 0
  totalTimeouts : Nat := 0

def approveKeywords : List String :=
  ["ok", "igen", "go", "yes", "jovahagyom", "approve", "proceed", "mehet", "rendben"]

/-- An accented capital is lowered before it loses its accent. -/
def unaccent : Char → Char
  | 'á' | 'Á' => 'a'
  | 'é' | 'É' => 'e'
  | 'ó' | 'Ó' => 'o'
  | c => c

def normalized (text : String) : String :=
  String.ofList ((Text.lower (Text.strip text.toList)).map unaccent)

@[irreducible] def approves (text : String) : Bool := approveKeywords.contains (normalized text)

/-- `auto_approve_risk_levels or frozenset({"low"})`. -/
def Config.autoApproves (cfg : Config) (riskLevel : String) : Bool :=
  let levels := if cfg.autoApproveRiskLevels.isEmpty then ["low"] else cfg.autoApproveRiskLevels
  levels.contains (String.ofList (Text.lower riskLevel.toList))

namespace Call

def taskId (c : Call) : String := c.confirmation.taskId

def chatId (c : Call) : Int := c.confirmation.chatId

def status (c : Call) : ConfirmationStatus := c.confirmation.status

def withStatus (c : Call) (status : ConfirmationStatus) : Call :=
  { c with confirmation := { c.confirmation with status } }

def answered (c : Call) (text : String) (status : ConfirmationStatus) : Call :=
  { c with confirmation := { c.confirmation with responseText := text, status } }

/-- The call has not returned. -/
def live (c : Call) : Bool :=
  match c.stage with
  | .saving | .sending | .waiting _ => true
  | .returned _ => false

/-- The prompt has gone out, and the call waits for its answer. -/
def prompted (c : Call) : Bool :=
  match c.stage with
  | .waiting prompted => prompted
  | .saving | .sending | .returned _ => false

end Call

namespace ConfirmationGate

variable (cfg : Config) (g : ConfirmationGate)

def setCall (k : Nat) (c : Call) : ConfirmationGate := { g with calls := g.calls.set k c }

/-- An entry of `_pending`, with its place. -/
def getPending (taskId : String) : Option (Nat × Call) :=
  (g.pending.get? taskId).bind fun k => (g.calls[k]?).map (k, ·)

def getPendingByChat (chatId : Int) : Option (Nat × Call) :=
  match g.chatToTask chatId with
  | some taskId => if taskId = "" then none else g.getPending taskId
  | none => none

def pendingCount : Nat := g.pending.length

def hasPending (chatId : Int) : Bool := (g.chatToTask chatId).isSome

def cleanup (taskId : String) (chatId : Int) : ConfirmationGate :=
  { g with
    pending := g.pending.pop taskId
    chatToTask :=
      if g.chatToTask chatId = some taskId then Function.update g.chatToTask chatId none else g.chatToTask }

/-! ## The awaits of `request_confirmation` -/

/-- What follows `wait_for`. The message after a timeout changes nothing here. -/
def finish (k : Nat) (c : Call) : ConfirmationGate :=
  if c.expired then
    { g with totalTimeouts := g.totalTimeouts + 1 }
      |>.setCall k { c.withStatus .timeout with stage := .returned .timeout }
      |>.cleanup c.taskId c.chatId
  else (g.setCall k { c with stage := .returned c.status }).cleanup c.taskId c.chatId

/-- `wait_for`: a timeout that is not positive is over before the event is looked at, and an
event that is set already is not waited for. -/
def beginWait (k : Nat) (c : Call) (prompted : Bool) : ConfirmationGate :=
  let waiting := { c with stage := .waiting prompted }
  if cfg.timeout ≤ 0 then g.setCall k { waiting with expired := true }
  else if c.status = .pending then g.setCall k waiting
  else g.finish k waiting

/-- From the store to the sender, if there is one. -/
def sendPrompt (k : Nat) (c : Call) : ConfirmationGate :=
  if cfg.sender then g.setCall k { c with stage := .sending } else g.beginWait cfg k c false

def register (c : Call) : ConfirmationGate :=
  { g with
    calls := g.calls ++ [c]
    pending := g.pending.set c.taskId g.calls.length
    chatToTask := Function.update g.chatToTask c.chatId (some c.taskId) }

/-- `request_confirmation`, up to its first await. -/
def requestConfirmation (taskId : String) (chatId : Int) (riskLevel : String) : ConfirmationGate :=
  let g := { g with totalRequests := g.totalRequests + 1 }
  if cfg.autoApproves riskLevel then { g with totalAutoApproved := g.totalAutoApproved + 1 }
  else
    let c : Call := { confirmation := { taskId, chatId, riskLevel }, stage := .saving }
    let k := g.calls.length
    let g := g.register c
    if cfg.approvalStore then g else g.sendPrompt cfg k c

/-- `handle_response`, which looks the chat up as `get_pending_by_chat` does. -/
def handleResponse (chatId : Int) (text : String) : Bool × ConfirmationGate :=
  match g.getPendingByChat chatId with
  | none => (false, g)
  | some (k, c) =>
    if c.status ≠ .pending then (false, g)
    else
      if approves text then
        (true, { g.setCall k (c.answered text .approved) with totalApproved := g.totalApproved + 1 })
      else (true, { g.setCall k (c.answered text .rejected) with totalRejected := g.totalRejected + 1 })

end ConfirmationGate

/-! ## Runs -/

inductive Event where
  | request (taskId : String) (chatId : Int) (riskLevel : String)
  | respond (chatId : Int) (text : String)
  /-- The timer of a waiting call fires. -/
  | timer (k : Nat)
  /-- The await of a call is over, and the call goes on. -/
  | proceed (k : Nat)
  deriving DecidableEq

namespace ConfirmationGate

variable (cfg : Config) (g : ConfirmationGate)

def fireTimer (k : Nat) : ConfirmationGate :=
  match g.calls[k]? with
  | some c =>
    match c.stage with
    | .waiting _ => g.setCall k { c with expired := true }
    | .saving | .sending | .returned _ => g
  | none => g

def proceed (k : Nat) : ConfirmationGate :=
  match g.calls[k]? with
  | some c =>
    match c.stage with
    | .saving => g.sendPrompt cfg k c
    | .sending => g.beginWait cfg k c true
    | .waiting _ => if c.expired ∨ c.status ≠ .pending then g.finish k c else g
    | .returned _ => g
  | none => g

def step : Event → ConfirmationGate
  | .request taskId chatId riskLevel => g.requestConfirmation cfg taskId chatId riskLevel
  | .respond chatId text => (g.handleResponse chatId text).2
  | .timer k => g.fireTimer k
  | .proceed k => g.proceed cfg k

/-! ## What one step can do -/

/-- A consumed response. -/
def answer (k : Nat) (c : Call) (text : String) : ConfirmationGate :=
  if approves text then { g.setCall k (c.answered text .approved) with totalApproved := g.totalApproved + 1 }
  else { g.setCall k (c.answered text .rejected) with totalRejected := g.totalRejected + 1 }

end ConfirmationGate

def Stage.rank : Stage → Nat
  | .saving => 3
  | .sending => 2
  | .waiting _ => 1
  | .returned _ => 0

/-- What a step needs, and what it leaves. -/
inductive Steps (cfg : Config) (g : ConfirmationGate) : Event → ConfirmationGate → Prop
  | autoApproved {taskId : String} {chatId : Int} {riskLevel : String} (hauto : cfg.autoApproves riskLevel = true) :
      Steps cfg g (.request taskId chatId riskLevel)
        { g with totalRequests := g.totalRequests + 1, totalAutoApproved := g.totalAutoApproved + 1 }
  | registered {riskLevel : String} {c : Call} (hauto : cfg.autoApproves riskLevel = false)
      (hstatus : c.status = .pending) (hlive : c.live = true) :
      Steps cfg g (.request c.taskId c.chatId riskLevel) ({ g with totalRequests := g.totalRequests + 1 }.register c)
  | ignored {chatId : Int} {text : String} (hnone : (g.handleResponse chatId text).1 = false) :
      Steps cfg g (.respond chatId text) g
  | answered {chatId : Int} {text : String} {k : Nat} {c : Call} (hget : g.getPendingByChat chatId = some (k, c))
      (hstatus : c.status = .pending) : Steps cfg g (.respond chatId text) (g.answer k c text)
  | noTimer {k : Nat} : Steps cfg g (.timer k) g
  | expired {k : Nat} {c : Call} (hk : g.calls[k]? = some c) (hlive : c.live = true) :
      Steps cfg g (.timer k) (g.setCall k { c with expired := true })
  | stays {k : Nat} (hpending : ∀ c, g.calls[k]? = some c → c.live = true → c.status = .pending) :
      Steps cfg g (.proceed k) g
  | moved {k : Nat} {c c' : Call} (hk : g.calls[k]? = some c) (hlive : c.live = true) (hlive' : c'.live = true)
      (hsame : c'.confirmation = c.confirmation) (hrank : c'.stage.rank < c.stage.rank)
      (hexpired : c'.expired = c.expired ∨ c'.expired = true ∧ cfg.timeout ≤ 0) : Steps cfg g (.proceed k) (g.setCall k c')
  | finished {k : Nat} {c : Call} (hk : g.calls[k]? = some c) (hlive : c.live = true)
      (hdone : c.expired = true ∨ c.status ≠ .pending) : Steps cfg g (.proceed k) (g.finish k c)

namespace ConfirmationGate

variable {cfg : Config} {g : ConfirmationGate} {k : Nat} {c : Call}

theorem finish_stage (stage : Stage) : g.finish k { c with stage } = g.finish k c := rfl

theorem beginWait_steps (hk : g.calls[k]? = some c) (hlive : c.live = true) (prompted : Bool)
    (hrank : 1 < c.stage.rank) : Steps cfg g (.proceed k) (g.beginWait cfg k c prompted) := by
  unfold beginWait
  dsimp only
  split
  · next htimeout => exact .moved hk hlive rfl rfl hrank (.inr ⟨rfl, htimeout⟩)
  · split
    · exact .moved hk hlive rfl rfl hrank (.inl rfl)
    · next hstatus =>
      rw [finish_stage]
      exact .finished hk hlive (.inr hstatus)

theorem sendPrompt_steps (hk : g.calls[k]? = some c) (hlive : c.live = true) (hrank : 2 < c.stage.rank) :
    Steps cfg g (.proceed k) (g.sendPrompt cfg k c) := by
  unfold sendPrompt
  split
  · exact .moved hk hlive rfl rfl hrank (.inl rfl)
  · exact beginWait_steps hk hlive false (by omega)

theorem proceed_steps (cfg : Config) (g : ConfirmationGate) (k : Nat) : Steps cfg g (.proceed k) (g.proceed cfg k) := by
  unfold proceed
  split
  · next c hk =>
    split
    · next hstage => exact sendPrompt_steps hk (by simp [Call.live, hstage]) (by simp [hstage, Stage.rank])
    · next hstage => exact beginWait_steps hk (by simp [Call.live, hstage]) true (by simp [hstage, Stage.rank])
    · next hstage =>
      split
      · next hdone => exact .finished hk (by simp [Call.live, hstage]) hdone
      · next hdone =>
        refine .stays fun c' hk' _ => ?_
        obtain rfl : c = c' := Option.some.inj (hk.symm.trans hk')
        by_contra hstatus
        exact hdone (.inr hstatus)
    · next hstage =>
      refine .stays fun c' hk' hlive => ?_
      obtain rfl : c = c' := Option.some.inj (hk.symm.trans hk')
      simp [Call.live, hstage] at hlive
  · next hnone =>
    refine .stays fun c hk _ => ?_
    rw [hnone] at hk
    cases hk

@[simp] theorem register_chatToTask (chatId : Int) :
    (g.register c).chatToTask chatId = if chatId = c.chatId then some c.taskId else g.chatToTask chatId :=
  Function.update_apply ..

theorem register_setCall {c c' : Call} (hsame : c'.confirmation = c.confirmation) :
    (g.register c).setCall g.calls.length c' = g.register c' := by
  unfold register setCall Call.taskId Call.chatId
  simp [hsame]

theorem sendPrompt_register (cfg : Config) (hstatus : c.status = .pending) :
    ∃ c' : Call, c'.confirmation = c.confirmation ∧ c'.live = true ∧
      (g.register c).sendPrompt cfg g.calls.length c = g.register c' := by
  unfold sendPrompt
  split
  · exact ⟨{ c with stage := .sending }, rfl, rfl, register_setCall rfl⟩
  · unfold beginWait
    dsimp only
    rw [if_pos hstatus]
    split
    · exact ⟨{ c with stage := .waiting false, expired := true }, rfl, rfl, register_setCall rfl⟩
    · exact ⟨{ c with stage := .waiting false }, rfl, rfl, register_setCall rfl⟩

theorem requestConfirmation_steps (cfg : Config) (g : ConfirmationGate) (taskId : String) (chatId : Int)
    (riskLevel : String) :
    Steps cfg g (.request taskId chatId riskLevel) (g.requestConfirmation cfg taskId chatId riskLevel) := by
  unfold requestConfirmation
  dsimp only
  split
  · next hauto => exact .autoApproved hauto
  · next hauto =>
    rw [Bool.not_eq_true] at hauto
    split
    · exact .registered (c := ⟨⟨taskId, chatId, riskLevel, _, _⟩, _, _⟩) hauto rfl rfl
    · obtain ⟨c, hsame, hlive, hregister⟩ := sendPrompt_register cfg
        (g := { g with totalRequests := g.totalRequests + 1 })
        (c := { confirmation := { taskId, chatId, riskLevel }, stage := .saving }) rfl
      have hc : c.taskId = taskId ∧ c.chatId = chatId ∧ c.status = .pending := by
        unfold Call.taskId Call.chatId Call.status
        rw [hsame]
        exact ⟨rfl, rfl, rfl⟩
      rw [hregister, ← hc.1, ← hc.2.1]
      exact .registered hauto hc.2.2 hlive

theorem handleResponse_steps (cfg : Config) (g : ConfirmationGate) (chatId : Int) (text : String) :
    Steps cfg g (.respond chatId text) (g.handleResponse chatId text).2 := by
  cases hget : g.getPendingByChat chatId with
  | none =>
    have hnone : g.handleResponse chatId text = (false, g) := by simp [handleResponse, hget]
    rw [hnone]
    exact .ignored (by rw [hnone])
  | some entry =>
    obtain ⟨k, c⟩ := entry
    by_cases hstatus : c.status = .pending
    · have hanswer : (g.handleResponse chatId text).2 = g.answer k c text := by
        unfold handleResponse answer
        simp only [hget, hstatus, ne_eq, not_true_eq_false, if_false]
        split <;> rfl
      rw [hanswer]
      exact .answered hget hstatus
    · have hnone : g.handleResponse chatId text = (false, g) := by simp [handleResponse, hget, hstatus]
      rw [hnone]
      exact .ignored (by rw [hnone])

theorem fireTimer_steps (cfg : Config) (g : ConfirmationGate) (k : Nat) : Steps cfg g (.timer k) (g.fireTimer k) := by
  unfold fireTimer
  split
  · next hk =>
    split
    · next hstage => exact .expired hk (by simp [Call.live, hstage])
    · exact .noTimer
    · exact .noTimer
    · exact .noTimer
  · exact .noTimer

theorem step_steps (cfg : Config) (g : ConfirmationGate) (e : Event) : Steps cfg g e (g.step cfg e) := by
  cases e with
  | request taskId chatId riskLevel => exact requestConfirmation_steps cfg g taskId chatId riskLevel
  | respond chatId text => exact handleResponse_steps cfg g chatId text
  | timer k => exact fireTimer_steps cfg g k
  | proceed k => exact proceed_steps cfg g k

theorem handleResponse_eq_true_iff (chatId : Int) (text : String) :
    (g.handleResponse chatId text).1 = true ↔ ∃ k c, g.getPendingByChat chatId = some (k, c) ∧ c.status = .pending := by
  unfold handleResponse
  split
  · next hget => simp [hget]
  · next k c hget =>
    split
    · next hstatus => simp [hget, hstatus]
    · next hstatus =>
      rw [Decidable.not_not] at hstatus
      split <;> simp [hget, hstatus]

theorem handleResponse_calls {chatId : Int} {text : String} (hget : g.getPendingByChat chatId = some (k, c))
    (hstatus : c.status = .pending) :
    (g.handleResponse chatId text).2.calls =
      g.calls.set k (c.answered text (if approves text then .approved else .rejected)) := by
  unfold handleResponse
  simp only [hget, hstatus, ne_eq, not_true_eq_false, if_false]
  split <;> rfl

end ConfirmationGate

/-! ## The entries of the calls that run -/

def Call.ended (c : Call) : Call :=
  if c.expired then { c.withStatus .timeout with stage := .returned .timeout }
  else { c with stage := .returned c.status }

section Ended

variable (c : Call)

@[simp] theorem Call.ended_taskId : c.ended.taskId = c.taskId := by
  unfold Call.ended
  split <;> rfl

@[simp] theorem Call.ended_chatId : c.ended.chatId = c.chatId := by
  unfold Call.ended
  split <;> rfl

@[simp] theorem Call.ended_live : c.ended.live = false := by
  unfold Call.ended
  split <;> rfl

variable (text : String) (status : ConfirmationStatus)

@[simp] theorem Call.answered_taskId : (c.answered text status).taskId = c.taskId := rfl

@[simp] theorem Call.answered_chatId : (c.answered text status).chatId = c.chatId := rfl

@[simp] theorem Call.answered_live : (c.answered text status).live = c.live := rfl

@[simp] theorem Call.answered_status : (c.answered text status).status = status := rfl

end Ended

namespace ConfirmationGate

variable {cfg : Config} {g : ConfirmationGate} {k : Nat} {c : Call}

@[simp] theorem finish_calls : (g.finish k c).calls = g.calls.set k c.ended := by
  unfold finish Call.ended
  split <;> rfl

@[simp] theorem finish_pending : (g.finish k c).pending = g.pending.pop c.taskId := by
  unfold finish
  split <;> rfl

theorem finish_chatToTask (chatId : Int) :
    (g.finish k c).chatToTask chatId =
      if chatId = c.chatId ∧ g.chatToTask c.chatId = some c.taskId then none else g.chatToTask chatId := by
  have hmap : (g.finish k c).chatToTask =
      if g.chatToTask c.chatId = some c.taskId then Function.update g.chatToTask c.chatId none else g.chatToTask := by
    unfold finish
    split <;> rfl
  rw [hmap]
  split
  · next htask => simp [Function.update_apply, htask]
  · next htask => simp [htask]

theorem answer_calls (text : String) :
    (g.answer k c text).calls = g.calls.set k (c.answered text (if approves text then .approved else .rejected)) := by
  unfold answer
  split <;> rfl

@[simp] theorem answer_pending (text : String) : (g.answer k c text).pending = g.pending := by
  unfold answer
  split <;> rfl

@[simp] theorem answer_chatToTask (text : String) : (g.answer k c text).chatToTask = g.chatToTask := by
  unfold answer
  split <;> rfl

/-- Every call that runs has the entry of its task, and there are no other entries. -/
structure Registered (g : ConfirmationGate) : Prop where
  nodup : g.pending.keys.Nodup
  ofEntry : ∀ taskId k, g.pending.get? taskId = some k →
    ∃ c, g.calls[k]? = some c ∧ c.live = true ∧ c.taskId = taskId
  ofLive : ∀ (k : Nat) c, g.calls[k]? = some c → c.live = true → g.pending.get? c.taskId = some k

/-- No request takes the entry of a task whose call still runs. -/
def Unclaimed (cfg : Config) (g : ConfirmationGate) : Event → Prop
  | .request taskId _ riskLevel => cfg.autoApproves riskLevel = true ∨ g.pending.get? taskId = none
  | _ => True

theorem Registered.update {g g' : ConfirmationGate} {c' : Call} (hg : g.Registered) (hk : g.calls[k]? = some c)
    (hcalls : g'.calls = g.calls.set k c') (hpending : g'.pending = g.pending) (hlive : c.live = true)
    (hlive' : c'.live = true) (htask : c'.taskId = c.taskId) : g'.Registered := by
  have hlt := (List.getElem?_eq_some_iff.mp hk).1
  refine ⟨hpending ▸ hg.nodup, fun taskId k' hentry => ?_, fun k' d hd hdlive => ?_⟩
  · rw [hpending] at hentry
    obtain ⟨d, hd, hdlive, hdtask⟩ := hg.ofEntry taskId k' hentry
    by_cases heq : k' = k
    · subst heq
      obtain rfl : c = d := Option.some.inj (hk.symm.trans hd)
      exact ⟨c', by rw [hcalls, List.getElem?_set_self hlt], hlive', htask.trans hdtask⟩
    · exact ⟨d, by rw [hcalls, List.getElem?_set_ne (Ne.symm heq), hd], hdlive, hdtask⟩
  · rw [hcalls] at hd
    rw [hpending]
    rcases getElem?_set_cases hd with ⟨rfl, rfl⟩ | ⟨-, hold⟩
    · rw [htask]
      exact hg.ofLive k' c hk hlive
    · exact hg.ofLive k' d hold hdlive

theorem Registered.finish (hg : g.Registered) (hk : g.calls[k]? = some c) (hlive : c.live = true) :
    (g.finish k c).Registered := by
  have hentry := hg.ofLive k c hk hlive
  refine ⟨?_, fun taskId k' h => ?_, fun k' d hd hdlive => ?_⟩
  · rw [finish_pending]
    exact hg.nodup.sublist (List.filter_sublist.map _)
  · rw [finish_pending, Dict.get?_pop] at h
    split at h
    · cases h
    · next htask =>
      obtain ⟨d, hd, hdlive, hdtask⟩ := hg.ofEntry taskId k' h
      have hne : k' ≠ k := by
        rintro rfl
        obtain rfl : c = d := Option.some.inj (hk.symm.trans hd)
        exact htask hdtask.symm
      exact ⟨d, by rw [finish_calls, List.getElem?_set_ne hne.symm, hd], hdlive, hdtask⟩
  · rw [finish_calls] at hd
    rcases getElem?_set_cases hd with ⟨-, rfl⟩ | ⟨hne, hold⟩
    · rw [Call.ended_live] at hdlive
      cases hdlive
    · have hold' := hg.ofLive k' d hold hdlive
      rw [finish_pending, Dict.get?_pop, if_neg]
      · exact hold'
      · intro htask
        rw [htask, hentry] at hold'
        exact hne (Option.some.inj hold').symm

theorem Registered.register (hg : g.Registered) (hnone : g.pending.get? c.taskId = none) (hlive : c.live = true) :
    (g.register c).Registered := by
  refine ⟨Dict.nodup_keys_set _ _ _ hg.nodup, fun taskId k h => ?_, fun k d hd hdlive => ?_⟩
  · unfold ConfirmationGate.register at h ⊢
    rw [Dict.get?_set] at h
    split at h
    · next htask =>
      obtain rfl := Option.some.inj h
      exact ⟨c, List.getElem?_concat_length, hlive, htask.symm⟩
    · obtain ⟨d, hd, hdlive, hdtask⟩ := hg.ofEntry taskId k h
      exact ⟨d, getElem?_concat_of_some hd, hdlive, hdtask⟩
  · rw [ConfirmationGate.register, Dict.get?_set]
    rcases getElem?_concat_cases hd with ⟨rfl, rfl⟩ | hold
    · rw [if_pos rfl]
    · have hentry := hg.ofLive k d hold hdlive
      rw [if_neg]
      · exact hentry
      · intro htask
        rw [htask, hnone] at hentry
        cases hentry

theorem getPendingByChat_some {chatId : Int} (h : g.getPendingByChat chatId = some (k, c)) :
    ∃ taskId, g.chatToTask chatId = some taskId ∧ taskId ≠ "" ∧ g.pending.get? taskId = some k ∧
      g.calls[k]? = some c := by
  unfold getPendingByChat at h
  split at h
  · next taskId hchat =>
    split at h
    · cases h
    · next hne =>
      unfold getPending at h
      obtain ⟨k', hentry, hmap⟩ := Option.bind_eq_some_iff.mp h
      obtain ⟨c', hc, heq⟩ := Option.map_eq_some_iff.mp hmap
      cases heq
      exact ⟨taskId, hchat, hne, hentry, hc⟩
  · cases h

theorem Registered.live_of_getPendingByChat (hg : g.Registered) {chatId : Int}
    (h : g.getPendingByChat chatId = some (k, c)) : g.calls[k]? = some c ∧ c.live = true := by
  obtain ⟨taskId, -, -, hentry, hk⟩ := getPendingByChat_some h
  obtain ⟨d, hd, hlive, -⟩ := hg.ofEntry taskId k hentry
  obtain rfl : c = d := Option.some.inj (hk.symm.trans hd)
  exact ⟨hk, hlive⟩

theorem Registered.step (hg : g.Registered) {e : Event} (he : Unclaimed cfg g e) : (g.step cfg e).Registered := by
  have hsteps := step_steps cfg g e
  generalize g.step cfg e = g' at hsteps ⊢
  cases hsteps with
  | autoApproved hauto => exact ⟨hg.nodup, hg.ofEntry, hg.ofLive⟩
  | registered hauto hstatus hlive =>
    rcases he with hauto' | hnone
    · rw [hauto'] at hauto
      cases hauto
    · exact Registered.register ⟨hg.nodup, hg.ofEntry, hg.ofLive⟩ hnone hlive
  | ignored hnone => exact hg
  | @answered chatId text k c hget hstatus =>
    obtain ⟨hk, hlive⟩ := hg.live_of_getPendingByChat hget
    exact hg.update hk (answer_calls text) (answer_pending text) hlive (by simpa using hlive) (by simp)
  | noTimer => exact hg
  | expired hk hlive => exact hg.update hk rfl rfl hlive hlive rfl
  | stays hpending => exact hg
  | moved hk hlive hlive' hsame hrank hexpired =>
    exact hg.update hk rfl rfl hlive hlive' (congrArg PendingConfirmation.taskId hsame)
  | finished hk hlive hdone => exact hg.finish hk hlive

end ConfirmationGate

def history (cfg : Config) (events : List Event) : ConfirmationGate :=
  run (ConfirmationGate.step cfg) {} events

end Occp.Adapters
