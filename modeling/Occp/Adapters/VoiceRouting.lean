import Occp.Adapters.ConfirmationAnswers
import Occp.Orchestrator.BrainFlow

/-!
# Where a text goes (`adapters/voice_handler.py`)

`handle_text` up to its first await: by then a text is with the confirmation gate, with the Brain
or on its way to the pipeline.
-/

namespace Occp.Adapters

open BrainFlow (Engine)

structure SanitizationResult where
  safe : Bool
  sanitized : String

/-- The authenticator and the sanitizer are whatever the handler was made with. -/
structure VoiceCommandHandler where
  channelAuth : Option (Int → Bool)
  inputSanitizer : String → SanitizationResult
  confirmationGate : Option ConfirmationGate
  brainFlow : Option Engine
  chatConversations : Int → Option String

/-- What a text is handed to. -/
inductive Action where
  | handleResponse (chatId : Int) (text : String)
  | sendConfirmationFeedback (chatId : Int) (text : String)
  | processMessage (userId message : String) (conversationId : Option String)
  /-- `classify` and `_execute_pipeline`, which makes a task of the text. -/
  | executePipeline (chatId : Int) (text : String)
  | send (chatId : Int) (text : String)
  deriving DecidableEq

def planTriggers : List String :=
  ["tervezz", "tervezd", "planold", "feladat:", "directive:", "directive>", "<directive", "brainflow:", "brain_flow:"]

/-- `any(trigger in stripped for trigger in plan_triggers)`. -/
def asksForPlan (text : String) : Bool :=
  let stripped := Text.lower (Text.strip text.toList)
  planTriggers.any fun trigger => isSubstring trigger.toList stripped

namespace VoiceCommandHandler

variable (h : VoiceCommandHandler) (chatId : Int)

def authenticateTelegram : Bool := h.channelAuth.any (· chatId)

def isConfirmationResponse : Bool := h.confirmationGate.any (·.hasPending chatId)

def handleConfirmationResponse (text : String) : Bool × VoiceCommandHandler :=
  match h.confirmationGate with
  | none => (false, h)
  | some gate =>
    let (handled, gate) := gate.handleResponse chatId text
    (handled, { h with confirmationGate := some gate })

/-- What follows when no confirmation took the text. -/
def route (text : String) : List Action :=
  if h.brainFlow.isSome && asksForPlan text then
    [.processMessage (toString chatId) text (h.chatConversations chatId)]
  else [.executePipeline chatId text]

def handleText (text : String) : List Action × VoiceCommandHandler :=
  if h.authenticateTelegram chatId then
    let result := h.inputSanitizer text
    if result.safe then
      let text := result.sanitized
      if h.brainFlow.isNone && h.isConfirmationResponse chatId then
        let (handled, h) := h.handleConfirmationResponse chatId text
        if handled then ([.handleResponse chatId text, .sendConfirmationFeedback chatId text], h)
        else (.handleResponse chatId text :: h.route chatId text, h)
      else (h.route chatId text, h)
    else ([.send chatId "🧠 A kérést biztonsági okokból nem tudom feldolgozni."], h)
  else ([.send chatId "🧠 Nem vagy jogosult, sajnálom."], h)

/-! ## The dialogues that wait -/

/-- A request for the chat has neither an answer nor a timeout. -/
def ConfirmationPending : Prop :=
  ∃ gate ∈ h.confirmationGate, ∃ (k : Nat) (c : Call),
    gate.calls[k]? = some c ∧ c.chatId = chatId ∧ c.live = true ∧ c.status = .pending

/-- The conversation of the chat asks for an approval of its plan. -/
def InConfirm (conversationId : String) : Prop :=
  ∃ engine ∈ h.brainFlow, h.chatConversations chatId = some conversationId ∧
    ∃ conv, engine.conversation? conversationId = some conv ∧ conv.phase = .confirm

/-- The reply goes to the dialogue that waits for it, and makes no task. -/
structure ReplyReachesDialogue (text : String) : Prop where
  confirmation : h.ConfirmationPending chatId →
    .handleResponse chatId (h.inputSanitizer text).sanitized ∈ (h.handleText chatId text).1 ∧
      ∀ task, .executePipeline chatId task ∉ (h.handleText chatId text).1
  brainFlow : ∀ conversationId, h.InConfirm chatId conversationId →
    .processMessage (toString chatId) (h.inputSanitizer text).sanitized (some conversationId) ∈
        (h.handleText chatId text).1 ∧
      ∀ task, .executePipeline chatId task ∉ (h.handleText chatId text).1

/-- The map of the gate leads to a request that takes answers. -/
def GateTakesAnswer : Prop :=
  ∃ gate ∈ h.confirmationGate, ∃ (k : Nat) (c : Call),
    gate.getPendingByChat chatId = some (k, c) ∧ c.status = .pending

variable {h chatId} {text : String}

theorem handleConfirmationResponse_eq_true_iff (text : String) :
    (h.handleConfirmationResponse chatId text).1 = true ↔ h.GateTakesAnswer chatId := by
  unfold handleConfirmationResponse GateTakesAnswer
  cases h.confirmationGate with
  | none => simp
  | some gate => simp [ConfirmationGate.handleResponse_eq_true_iff]

theorem isConfirmationResponse_of_gateTakesAnswer (hgate : h.GateTakesAnswer chatId) :
    h.isConfirmationResponse chatId = true := by
  obtain ⟨gate, hmem, k, c, hget, -⟩ := hgate
  obtain ⟨taskId, hchat, -⟩ := ConfirmationGate.getPendingByChat_some hget
  unfold isConfirmationResponse
  rw [Option.mem_def.mp hmem]
  simp [ConfirmationGate.hasPending, hchat]

theorem handleConfirmationResponse_brainFlow :
    (h.handleConfirmationResponse chatId text).2.brainFlow = h.brainFlow := by
  unfold handleConfirmationResponse
  split <;> rfl

/-- Without the Brain every text that no confirmation takes becomes a task. -/
theorem route_of_no_brainFlow (chatId : Int) (text : String) (hbrain : h.brainFlow = none) : h.route chatId text = [.executePipeline chatId text] := by
  unfold route
  simp [hbrain]

section Accepted

variable (hauth : h.authenticateTelegram chatId = true) (hsafe : (h.inputSanitizer text).safe = true)

include hauth hsafe

theorem handleText_of_taken (hbrain : h.brainFlow = none) (hgate : h.GateTakesAnswer chatId) :
    (h.handleText chatId text).1 =
      [.handleResponse chatId (h.inputSanitizer text).sanitized,
        .sendConfirmationFeedback chatId (h.inputSanitizer text).sanitized] := by
  have hpending := isConfirmationResponse_of_gateTakesAnswer hgate
  have hhandled := (handleConfirmationResponse_eq_true_iff (h.inputSanitizer text).sanitized).mpr hgate
  unfold handleText
  simp [hauth, hsafe, hbrain, hpending, hhandled]

theorem handleText_of_brainFlow (hbrain : h.brainFlow.isSome = true) :
    (h.handleText chatId text).1 = h.route chatId (h.inputSanitizer text).sanitized := by
  unfold handleText
  simp [hauth, hsafe, Option.isSome_iff_ne_none.mp hbrain]

/-- Without the Brain, and with no request that takes answers, a text makes a task. -/
theorem handleText_of_not_taken (hbrain : h.brainFlow = none) (hgate : ¬h.GateTakesAnswer chatId) :
    .executePipeline chatId (h.inputSanitizer text).sanitized ∈ (h.handleText chatId text).1 := by
  have hhandled : (h.handleConfirmationResponse chatId (h.inputSanitizer text).sanitized).1 = false := by
    rw [← Bool.not_eq_true, handleConfirmationResponse_eq_true_iff]
    exact hgate
  have hroute := route_of_no_brainFlow chatId (h.inputSanitizer text).sanitized hbrain
  have hroute' := route_of_no_brainFlow chatId (h.inputSanitizer text).sanitized
    (handleConfirmationResponse_brainFlow.trans hbrain : (h.handleConfirmationResponse chatId
      (h.inputSanitizer text).sanitized).2.brainFlow = none)
  unfold handleText
  by_cases hpending : h.isConfirmationResponse chatId = true
  · simp [hauth, hsafe, hbrain, hpending, hhandled, hroute']
  · simp [hauth, hsafe, hbrain, hpending, hroute]

theorem confirmation_taken_iff :
    (.handleResponse chatId (h.inputSanitizer text).sanitized ∈ (h.handleText chatId text).1 ∧
        ∀ task, .executePipeline chatId task ∉ (h.handleText chatId text).1) ↔
      h.brainFlow = none ∧ h.GateTakesAnswer chatId := by
  constructor
  · rintro ⟨htaken, hnone⟩
    have hbrain : h.brainFlow = none := by
      by_contra hsome
      have hroute := handleText_of_brainFlow hauth hsafe (Option.isSome_iff_ne_none.mpr hsome)
      rw [hroute, route] at htaken
      split at htaken <;> simp at htaken
    refine ⟨hbrain, ?_⟩
    by_contra hgate
    exact hnone _ (handleText_of_not_taken hauth hsafe hbrain hgate)
  · rintro ⟨hbrain, hgate⟩
    rw [handleText_of_taken hauth hsafe hbrain hgate]
    simp

theorem conversation_continued_iff {conversationId : String} (hconfirm : h.InConfirm chatId conversationId) :
    (.processMessage (toString chatId) (h.inputSanitizer text).sanitized (some conversationId) ∈
          (h.handleText chatId text).1 ∧
        ∀ task, .executePipeline chatId task ∉ (h.handleText chatId text).1) ↔
      asksForPlan (h.inputSanitizer text).sanitized = true := by
  obtain ⟨engine, hengine, hchat, -⟩ := hconfirm
  have hbrain : h.brainFlow.isSome = true := by
    rw [Option.mem_def.mp hengine]
    rfl
  rw [handleText_of_brainFlow hauth hsafe hbrain, route, hbrain, hchat]
  cases asksForPlan (h.inputSanitizer text).sanitized <;> simp

end Accepted

theorem reply_reaches_dialogue_iff (h : VoiceCommandHandler) (chatId : Int) (text : String)
    (hauth : h.authenticateTelegram chatId = true) (hsafe : (h.inputSanitizer text).safe = true) :
    h.ReplyReachesDialogue chatId text ↔
      (h.ConfirmationPending chatId → h.brainFlow = none ∧ h.GateTakesAnswer chatId) ∧
        ((∃ conversationId, h.InConfirm chatId conversationId) →
          asksForPlan (h.inputSanitizer text).sanitized = true) := by
  constructor
  · rintro ⟨hconfirmation, hflow⟩
    refine ⟨fun hpending => (confirmation_taken_iff hauth hsafe).mp (hconfirmation hpending), ?_⟩
    rintro ⟨conversationId, hconfirm⟩
    exact (conversation_continued_iff hauth hsafe hconfirm).mp (hflow conversationId hconfirm)
  · rintro ⟨hconfirmation, hflow⟩
    refine ⟨fun hpending => (confirmation_taken_iff hauth hsafe).mpr (hconfirmation hpending), ?_⟩
    intro conversationId hconfirm
    exact (conversation_continued_iff hauth hsafe hconfirm).mpr (hflow ⟨conversationId, hconfirm⟩)

/-- Where the gate serves one request of a chat at a time, the answer to it gets there. -/
theorem answer_taken_of_routed {gate : ConfirmationGate} (hgate : h.confirmationGate = some gate) (hrouted : gate.Routed)
    (hauth : h.authenticateTelegram chatId = true) (hsafe : (h.inputSanitizer text).safe = true)
    (hbrain : h.brainFlow = none) {k : Nat} {c : Call} (hk : gate.calls[k]? = some c) (hopen : c.Open)
    (hchat : c.chatId = chatId) :
    .handleResponse chatId (h.inputSanitizer text).sanitized ∈ (h.handleText chatId text).1 ∧
      ∀ task, .executePipeline chatId task ∉ (h.handleText chatId text).1 := by
  subst hchat
  rw [confirmation_taken_iff hauth hsafe]
  exact ⟨hbrain, gate, hgate, k, c, hrouted.getPendingByChat hk hopen, hopen.2.1⟩

/-! A request that waits in chat 7, with and without the Brain. -/

def waitingHandler (brainFlow : Option Engine) : VoiceCommandHandler where
  channelAuth := some fun chatId => chatId = 7
  inputSanitizer text := ⟨true, text⟩
  confirmationGate := some (history {} [.request "a" 7 "high", .proceed 0])
  brainFlow
  chatConversations _ := none

theorem waitingHandler_gateTakesAnswer (brainFlow : Option Engine) : (waitingHandler brainFlow).GateTakesAnswer 7 :=
  ⟨_, rfl, 0, _, rfl, rfl⟩

theorem answer_reaches_gate : (waitingHandler none).ReplyReachesDialogue 7 "ok" := by
  apply (reply_reaches_dialogue_iff (waitingHandler none) 7 "ok" rfl rfl).mpr
  refine ⟨fun _ => ⟨rfl, waitingHandler_gateTakesAnswer none⟩, ?_⟩
  rintro ⟨conversationId, engine, hengine, -⟩
  cases hengine

theorem answer_becomes_task :
    ¬∀ (h : VoiceCommandHandler) (chatId : Int) (text : String), h.authenticateTelegram chatId = true →
      (h.inputSanitizer text).safe = true → h.ReplyReachesDialogue chatId text := by
  intro h
  have hpending : (waitingHandler (some {})).ConfirmationPending 7 := ⟨_, rfl, 0, _, rfl, rfl, rfl, rfl⟩
  have htaken := (h (waitingHandler (some {})) 7 "ok" rfl rfl).confirmation hpending
  rw [confirmation_taken_iff rfl rfl] at htaken
  cases htaken.1

end VoiceCommandHandler

end Occp.Adapters
