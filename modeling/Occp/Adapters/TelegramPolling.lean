import Occp.Adapters.VoiceRouting

/-!
# The polling loop (`adapters/telegram_voice_bot.py`)

`_poll_loop` awaits the handler of each update, and with it the pipeline and the confirmation
that the pipeline asks for. The handler has no Brain, and its gate is the one of the pipeline.
-/

namespace Occp.Adapters

open Lib (run getElem?_concat_of_some)

inductive Content where
  | text (text : String)
  | voice
  | other

structure Update where
  updateId : Int
  chatId : Int
  /-- An `edited_message`, which `_handle_update` does not look at. -/
  edited : Bool := false
  content : Content

/-- Where the coroutine of the loop is suspended, with the updates that are left of its batch. -/
inductive Position where
  | polling
  | sending (rest : List Update)
  /-- The handler has not come to the confirmation yet. -/
  | working (chatId : Int) (rest : List Update)
  | confirming (k : Nat) (rest : List Update)

structure TelegramVoiceBot where
  ownerChatId : Int
  channelAuth : Option (Int → Bool)
  inputSanitizer : String → SanitizationResult
  confirmation : Config

structure Polling where
  position : Position := .polling
  offset : Int := 0
  /-- What `getUpdates` has. -/
  available : List Update := []
  gate : ConfirmationGate := {}

/-- What `_handle_update` makes of a text. -/
inductive Handling where
  | raised
  | ignored
  | handleText (text : String)

def alwaysCommands : List String := ["/start", "/help"]

/-- `stripped[len(prefix):].lstrip()`, when it starts with the prefix. -/
def withoutPrefix? (start : String) (stripped : List Char) : Option (List Char) :=
  if start.toList.isPrefixOf (Text.lower stripped) then
    some ((stripped.drop start.length).dropWhile Text.isSpace)
  else none

def orIgnored (content : List Char) : Handling :=
  if content.isEmpty then .ignored else .handleText (String.ofList content)

namespace TelegramVoiceBot

variable (bot : TelegramVoiceBot)

def handler (gate : ConfirmationGate) : VoiceCommandHandler where
  channelAuth := bot.channelAuth
  inputSanitizer := bot.inputSanitizer
  confirmationGate := some gate
  brainFlow := none
  chatConversations _ := none

def handleUpdate (chatId : Int) (text : String) : Handling :=
  if chatId = 0 ∨ text = "" then .ignored
  else
    let stripped := Text.strip text.toList
    match Text.split stripped with
    -- `stripped.split()[0]`
    | [] => .raised
    | word :: _ =>
      if alwaysCommands.contains (String.ofList (Text.lower word)) then .handleText (String.ofList stripped)
      else if bot.ownerChatId ≠ 0 ∧ chatId = bot.ownerChatId then
        match withoutPrefix? "brian:" stripped with
        | some content => orIgnored content
        | none => orIgnored ((withoutPrefix? "brain:" stripped).getD stripped)
      else
        match withoutPrefix? "brian:" stripped with
        | some content => orIgnored content
        | none => .ignored

/-- The loop over a batch, up to its next await. After an exception it polls again. -/
def takeUpdates : List Update → Polling → Polling
  | [], s => { s with position := .polling }
  | u :: rest, s =>
    let s := { s with offset := u.updateId + 1 }
    if bot.ownerChatId ≠ 0 ∧ u.chatId ≠ bot.ownerChatId then takeUpdates rest s
    else
      match u.content with
      | .voice => { s with position := .working u.chatId rest }
      | .other => takeUpdates rest s
      | .text text =>
        if u.edited then takeUpdates rest s
        else
          match bot.handleUpdate u.chatId text with
          | .raised => { s with position := .polling }
          | .ignored => takeUpdates rest s
          | .handleText text =>
            let (actions, h) := (bot.handler s.gate).handleText u.chatId text
            let s := { s with gate := h.confirmationGate.getD s.gate }
            let asks := actions.any fun
              | .executePipeline .. => true
              | _ => false
            { s with position := if asks then .working u.chatId rest else .sending rest }

/-- The loop goes on from its await; `ask` is the confirmation that a pipeline asks for, if it
gets so far. -/
def proceed (ask : Option (String × String)) (s : Polling) : Polling :=
  match s.position with
  | .polling => s
  | .sending rest => bot.takeUpdates rest s
  | .working chatId rest =>
    match ask with
    | none => { s with position := .sending rest }
    | some (taskId, riskLevel) =>
      { s with
        gate := s.gate.requestConfirmation bot.confirmation taskId chatId riskLevel
        position :=
          if bot.confirmation.autoApproves riskLevel then .sending rest
          else .confirming s.gate.calls.length rest }
  | .confirming k rest =>
    let gate := s.gate.proceed bot.confirmation k
    { s with
      gate
      position := if (gate.calls[k]?).any (·.live) then .confirming k rest else .sending rest }

end TelegramVoiceBot

/-- What other coroutines do at the gate. Only the handler of the bot passes answers on. -/
inductive Other where
  | request (taskId : String) (chatId : Int) (riskLevel : String)
  | proceed (k : Nat)

inductive PollEvent where
  | arrive (u : Update)
  /-- The request to `getUpdates` is over, with all updates from the offset on or in vain. -/
  | getUpdates (ok : Bool)
  | loop (ask : Option (String × String))
  | timer (k : Nat)
  | other (e : Other)

namespace TelegramVoiceBot

variable (bot : TelegramVoiceBot)

def step (s : Polling) : PollEvent → Polling
  | .arrive u => { s with available := s.available ++ [u] }
  | .getUpdates ok =>
    match s.position with
    | .polling => if ok then bot.takeUpdates (s.available.filter fun u => s.offset ≤ u.updateId) s else s
    | .sending _ | .working .. | .confirming .. => s
  | .loop ask => bot.proceed ask s
  | .timer k => { s with gate := s.gate.fireTimer k }
  | .other (.request taskId chatId riskLevel) =>
    { s with gate := s.gate.requestConfirmation bot.confirmation taskId chatId riskLevel }
  | .other (.proceed k) =>
    match s.position with
    | .confirming mine _ => if k = mine then s else { s with gate := s.gate.proceed bot.confirmation k }
    | .polling | .sending _ | .working .. => { s with gate := s.gate.proceed bot.confirmation k }

end TelegramVoiceBot

/-! ## A call that nobody answers -/

/-- The call at `k` still runs, and has no answer. -/
def Unanswered (k : Nat) (g : ConfirmationGate) : Prop :=
  ∃ c, g.calls[k]? = some c ∧ c.live = true ∧ c.status = .pending

/-- The call at `k` has returned `TIMEOUT`. -/
def TimedOut (k : Nat) (g : ConfirmationGate) : Prop :=
  ∃ c, g.calls[k]? = some c ∧ c.stage = .returned .timeout ∧ c.status = .timeout

section Gate

open ConfirmationGate

variable {cfg : Config} {g : ConfirmationGate} {k : Nat}

/-- Nothing changes a call that has returned its outcome. -/
theorem step_settled {c : Call} (hk : g.calls[k]? = some c) (hdead : c.live = false) (hstatus : c.status ≠ .pending)
    (e : Event) : (g.step cfg e).calls[k]? = some c := by
  have hset {k' : Nat} {d d' : Call} (hk' : g.calls[k']? = some d) (hd : d.live = true ∨ d.status = .pending) :
      (g.calls.set k' d')[k]? = some c := by
    rw [List.getElem?_set_ne, hk]
    rintro rfl
    obtain rfl : c = d := Option.some.inj (hk.symm.trans hk')
    rcases hd with hlive | hpending
    · rw [hdead] at hlive
      cases hlive
    · exact hstatus hpending
  have hsteps := step_steps cfg g e
  generalize g.step cfg e = g' at hsteps ⊢
  cases hsteps with
  | autoApproved hauto => exact hk
  | registered hauto hpending hlive => exact getElem?_concat_of_some hk
  | ignored hnone => exact hk
  | answered hget hpending =>
    obtain ⟨taskId, -, -, -, hk'⟩ := getPendingByChat_some hget
    rw [answer_calls]
    exact hset hk' (.inr hpending)
  | noTimer => exact hk
  | expired hk' hlive => exact hset hk' (.inl hlive)
  | stays hpending => exact hk
  | moved hk' hlive hlive' hsame hrank hexpired => exact hset hk' (.inl hlive)
  | finished hk' hlive hdone =>
    rw [finish_calls]
    exact hset hk' (.inl hlive)

theorem TimedOut.step (h : TimedOut k g) (cfg : Config) (e : Event) : TimedOut k (g.step cfg e) := by
  obtain ⟨c, hk, hstage, hstatus⟩ := h
  exact ⟨c, step_settled hk (by simp [Call.live, hstage]) (by simp [hstatus]) e, hstage, hstatus⟩

/-- Only a response ends the wait for an answer, and only the call itself the call. -/
theorem Unanswered.step (h : Unanswered k g) (cfg : Config) {e : Event} (hrespond : ∀ chatId text, e ≠ .respond chatId text) :
    Unanswered k (g.step cfg e) ∨ e = .proceed k ∧ TimedOut k (g.step cfg e) := by
  obtain ⟨c, hk, hclive, hstatus⟩ := h
  have hset {k' : Nat} {d d' : Call} {g' : ConfirmationGate} (hk' : g.calls[k']? = some d)
      (hg' : g'.calls = g.calls.set k' d') (hlive : d'.live = true) (hsame : d'.status = d.status) :
      Unanswered k g' := by
    unfold Unanswered
    rw [hg']
    by_cases heq : k' = k
    · subst heq
      obtain rfl : c = d := Option.some.inj (hk.symm.trans hk')
      exact ⟨d', List.getElem?_set_self (List.getElem?_eq_some_iff.mp hk).1, hlive, hsame.trans hstatus⟩
    · exact ⟨c, by rw [List.getElem?_set_ne heq, hk], hclive, hstatus⟩
  have hsteps := step_steps cfg g e
  generalize g.step cfg e = g' at hsteps ⊢
  cases hsteps with
  | autoApproved hauto => exact .inl ⟨c, hk, hclive, hstatus⟩
  | registered hauto hpending hlive => exact .inl ⟨c, getElem?_concat_of_some hk, hclive, hstatus⟩
  | @ignored chatId text hnone => exact absurd rfl (hrespond chatId text)
  | @answered chatId text k' d hget hpending => exact absurd rfl (hrespond chatId text)
  | noTimer => exact .inl ⟨c, hk, hclive, hstatus⟩
  | expired hk' hlive => exact .inl (hset hk' rfl hlive rfl)
  | stays hpending => exact .inl ⟨c, hk, hclive, hstatus⟩
  | moved hk' hlive hlive' hsame hrank hexpired =>
    exact .inl (hset hk' rfl hlive' (congrArg PendingConfirmation.status hsame))
  | @finished k' d hk' hlive hdone =>
    by_cases heq : k' = k
    · subst heq
      obtain rfl : c = d := Option.some.inj (hk.symm.trans hk')
      have hexpired : c.expired = true := hdone.resolve_right fun hne => hne hstatus
      refine .inr ⟨rfl, c.ended, ?_, ?_⟩
      · rw [finish_calls, List.getElem?_set_self (List.getElem?_eq_some_iff.mp hk).1]
      · rw [Call.ended, if_pos hexpired]
        exact ⟨rfl, rfl⟩
    · refine .inl ⟨c, ?_, hclive, hstatus⟩
      rw [finish_calls, List.getElem?_set_ne heq, hk]

end Gate

/-! ## The loop inside a confirmation -/

namespace TelegramVoiceBot

variable {bot : TelegramVoiceBot} {k : Nat} {s : Polling}

theorem handleText_gate (bot : TelegramVoiceBot) (gate : ConfirmationGate) (chatId : Int) (text : String) :
    ((bot.handler gate).handleText chatId text).2.confirmationGate = some gate ∨
      ∃ answer, ((bot.handler gate).handleText chatId text).2.confirmationGate =
        some (gate.handleResponse chatId answer).2 := by
  unfold VoiceCommandHandler.handleText
  split
  · dsimp only
    split
    · split
      · have hgate : ((bot.handler gate).handleConfirmationResponse chatId
            ((bot.handler gate).inputSanitizer text).sanitized).2.confirmationGate =
              some (gate.handleResponse chatId ((bot.handler gate).inputSanitizer text).sanitized).2 := rfl
        split
        · exact .inr ⟨_, hgate⟩
        · exact .inr ⟨_, hgate⟩
      · exact .inl rfl
    · exact .inl rfl
  · exact .inl rfl

/-- A batch reaches the gate through responses only. -/
theorem takeUpdates_timedOut (batch : List Update) (h : TimedOut k s.gate) :
    TimedOut k (bot.takeUpdates batch s).gate := by
  induction batch generalizing s with
  | nil => exact h
  | cons u rest ih =>
    unfold takeUpdates
    dsimp only
    split
    · exact ih h
    · split
      · exact h
      · exact ih h
      · split
        · exact ih h
        · split
          · exact h
          · exact ih h
          · next text _ =>
            dsimp only
            rcases handleText_gate bot s.gate u.chatId text with hgate | ⟨answer, hgate⟩
            · rw [hgate]
              exact h
            · rw [hgate]
              exact h.step bot.confirmation (.respond u.chatId answer)

/-- The loop waits for a call that has no answer, or the call has timed out. -/
def Blocked (k : Nat) (s : Polling) : Prop :=
  (∃ rest, s.position = .confirming k rest) ∧ Unanswered k s.gate ∨ TimedOut k s.gate

theorem proceed_timedOut (ask : Option (String × String)) (h : TimedOut k s.gate) :
    TimedOut k (bot.proceed ask s).gate := by
  unfold TelegramVoiceBot.proceed
  split
  · exact h
  · exact takeUpdates_timedOut _ h
  · split
    · exact h
    · next taskId riskLevel => exact h.step bot.confirmation (.request taskId _ riskLevel)
  · next k' rest _ => exact h.step bot.confirmation (.proceed k')

theorem Blocked.loop (h : Blocked k s) (ask : Option (String × String)) : Blocked k (bot.proceed ask s) := by
  rcases h with ⟨⟨rest, hposition⟩, hwaits⟩ | htimedOut
  · unfold TelegramVoiceBot.proceed
    rw [hposition]
    have hproceed := hwaits.step bot.confirmation (e := .proceed k) (by simp)
    rcases hproceed with hwaits' | ⟨-, htimedOut⟩
    · obtain ⟨c, hk, hlive, hstatus⟩ := hwaits'
      have hrunning : ((s.gate.proceed bot.confirmation k).calls[k]?).any (·.live) = true := by
        change (s.gate.proceed bot.confirmation k).calls[k]? = some c at hk
        rw [hk]
        exact hlive
      refine .inl ⟨⟨rest, ?_⟩, c, hk, hlive, hstatus⟩
      dsimp only
      rw [if_pos hrunning]
    · exact .inr htimedOut
  · exact .inr (proceed_timedOut ask htimedOut)

/-- Whatever else happens at the gate while the loop waits is no answer. -/
theorem Blocked.gate (h : Blocked k s) {e : Event} (hrespond : ∀ chatId text, e ≠ .respond chatId text)
    (hother : e ≠ .proceed k) : Blocked k { s with gate := s.gate.step bot.confirmation e } := by
  rcases h with ⟨hposition, hwaits⟩ | htimedOut
  · have hstep := hwaits.step bot.confirmation hrespond
    exact .inl ⟨hposition, hstep.resolve_right fun hproceed => hother hproceed.1⟩
  · exact .inr (htimedOut.step bot.confirmation e)

/-- While the loop is inside a confirmation, nothing in the whole process passes an answer on. -/
theorem Blocked.step (h : Blocked k s) (e : PollEvent) : Blocked k (bot.step s e) := by
  cases e with
  | arrive u => exact h
  | getUpdates ok =>
    unfold TelegramVoiceBot.step
    rcases h with ⟨⟨rest, hposition⟩, hwaits⟩ | htimedOut
    · rw [hposition]
      exact .inl ⟨⟨rest, hposition⟩, hwaits⟩
    · right
      dsimp only
      split
      · split
        · exact takeUpdates_timedOut _ htimedOut
        · exact htimedOut
      · exact htimedOut
      · exact htimedOut
      · exact htimedOut
  | loop ask => exact h.loop ask
  | timer j =>
    have htimer : Blocked k { s with gate := s.gate.step bot.confirmation (.timer j) } := h.gate (by simp) (by simp)
    exact htimer
  | other e =>
    cases e with
    | request taskId chatId riskLevel => exact h.gate (e := .request taskId chatId riskLevel) (by simp) (by simp)
    | proceed j =>
      unfold TelegramVoiceBot.step
      dsimp only
      split
      · next mine rest hposition =>
        split
        · exact h
        · next hne =>
          rcases h with ⟨⟨rest', hconfirming⟩, hwaits⟩ | htimedOut
          · obtain ⟨rfl, rfl⟩ := Position.confirming.inj (hposition.symm.trans hconfirming)
            have hblocked : Blocked mine s := .inl ⟨⟨rest, hposition⟩, hwaits⟩
            exact hblocked.gate (e := .proceed j) (by simp) (by simpa using hne)
          · exact .inr (htimedOut.step bot.confirmation (.proceed j))
      all_goals
        next hposition =>
          rcases h with ⟨⟨rest, hconfirming⟩, -⟩ | htimedOut
          · cases hposition.symm.trans hconfirming
          · exact .inr (htimedOut.step bot.confirmation (.proceed j))

/-! ## Every run -/

/-- The approving text of the owner arrives while the prompt of the call at `k` is out, its time is
not up, and no other confirmation of the chat is open. -/
def AnswerAvailable (bot : TelegramVoiceBot) (s : Polling) (events : List PollEvent) (k : Nat) : Prop :=
  ∃ before u text after c rest, events = before ++ .arrive u :: after ∧
    (run bot.step s before).position = .confirming k rest ∧ (run bot.step s before).gate.calls[k]? = some c ∧
    c.prompted = true ∧ c.Open ∧ c.chatId = bot.ownerChatId ∧ u.chatId = bot.ownerChatId ∧ u.content = .text text ∧
    u.edited = false ∧ approves text = true ∧
    ∀ (j : Nat) d, (run bot.step s before).gate.calls[j]? = some d → d.Open → d.chatId = c.chatId → j = k

theorem blocked_run (events : List PollEvent) (h : Blocked k s) : Blocked k (run bot.step s events) :=
  Lib.run_invariant (Blocked k) (fun _ e h => h.step e) h events

theorem approval_never_returned (bot : TelegramVoiceBot) (s : Polling) (events : List PollEvent) (k : Nat)
    (h : AnswerAvailable bot s events k) :
    ∃ c, (run bot.step s events).gate.calls[k]? = some c ∧ c.status ≠ .approved ∧
      ∀ result, c.stage = .returned result → result = .timeout := by
  obtain ⟨before, u, text, after, c, rest, rfl, hposition, hk, -, hopen, -⟩ := h
  have hblocked : Blocked k (run bot.step s before) := .inl ⟨⟨rest, hposition⟩, c, hk, hopen.1, hopen.2.1⟩
  have hend : Blocked k (run bot.step s (before ++ .arrive u :: after)) := by
    rw [Lib.run_append]
    exact blocked_run _ hblocked
  rcases hend with ⟨-, d, hd, hlive, hstatus⟩ | ⟨d, hd, hstage, hstatus⟩
  · refine ⟨d, hd, by simp [hstatus], fun result hreturned => ?_⟩
    simp [Call.live, hreturned] at hlive
  · refine ⟨d, hd, by simp [hstatus], fun result hreturned => ?_⟩
    rw [hstage] at hreturned
    exact (Stage.returned.inj hreturned).symm

/-! The owner says `ok` in time, and the request times out. -/

def ownerBot : TelegramVoiceBot where
  ownerChatId := 7
  channelAuth := some fun _ => true
  inputSanitizer text := ⟨true, text⟩
  confirmation := {}

def untilPrompt : List PollEvent :=
  [.arrive ⟨1, 7, false, .text "deploy"⟩, .getUpdates true, .loop (some ("a", "high")), .loop none]

def inTime : List PollEvent := untilPrompt ++ [.arrive ⟨2, 7, false, .text "ok"⟩, .timer 0, .loop none]

theorem inTime_available : AnswerAvailable ownerBot {} inTime 0 := by
  refine ⟨untilPrompt, ⟨2, 7, false, .text "ok"⟩, "ok", [.timer 0, .loop none], _, [], rfl, rfl, rfl, rfl,
    ⟨rfl, rfl, rfl⟩, rfl, rfl, rfl, rfl, by decide +kernel, ?_⟩
  intro j d hj _ _
  have hlength : (run ownerBot.step {} untilPrompt).gate.calls.length = 1 := rfl
  have hlt := (List.getElem?_eq_some_iff.mp hj).1
  omega

theorem inTime_not_approved : ∃ c, (run ownerBot.step {} inTime).gate.calls[0]? = some c ∧ c.status ≠ .approved ∧
    ∀ result, c.stage = .returned result → result = .timeout :=
  approval_never_returned ownerBot {} inTime 0 inTime_available

theorem inTime_answer_lost :
    ¬∀ (bot : TelegramVoiceBot) (s : Polling) (events : List PollEvent) (k : Nat), AnswerAvailable bot s events k →
      ∀ c, (run bot.step s events).gate.calls[k]? = some c → c.live = false → c.stage = .returned .approved := by
  intro h
  have hstage := h ownerBot {} inTime 0 inTime_available _ rfl rfl
  cases hstage

end TelegramVoiceBot

end Occp.Adapters
