import Occp.Lib.Rows
import Occp.Orchestrator.Isolation
import Occp.Orchestrator.ReportedTasks
import Occp.Orchestrator.StopFinal

/-!
# Conversations and their rows (`store/conversation_store.py`)

`process_message` saves its conversation before the handler and after it. A save writes what
the conversation was when the save began, and is over when its call goes on.
-/

namespace Occp.BrainFlow

/-! ## Rows -/

def BrainConversation.row (conv : BrainConversation) (c : String) : Row where
  conversationId := c
  userId := conv.userId
  phase := conv.phase.value
  originalMessage := conv.originalMessage
  clarifyingQuestions := conv.clarifyingQuestions
  clarifyingAnswers := conv.clarifyingAnswers
  executionPlan := conv.executionPlan
  planApproved := conv.planApproved
  dispatchedTasks := conv.dispatchedTasks
  results := conv.results
  feedbackScore := conv.feedbackScore

theorem FlowPhase.parse?_value (phase : FlowPhase) : parse? phase.value = some phase := by
  cases phase <;> decide

theorem BrainConversation.conversation_row (conv : BrainConversation) (c : String) :
    (conv.row c).conversation conv.updatedAt = conv := by
  simp [Row.conversation, row, FlowPhase.parse?_value]

/-- What the row of a finished conversation says of its phase. -/
theorem Row.isTerminal_of_inactive {row : Row} {now : Int} (h : row.isActive = false) :
    (row.conversation now).isTerminal = true := by
  have hphase : row.phase = "completed" ∨ row.phase = "cancelled" := by
    simpa [isActive, or_iff_not_imp_left] using h
  rcases hphase with h | h
  · have hparse : FlowPhase.parse? "completed" = some .completed := by decide
    simp [BrainConversation.isTerminal, conversation, h, hparse]
  · have hparse : FlowPhase.parse? "cancelled" = some .cancelled := by decide
    simp [BrainConversation.isTerminal, conversation, h, hparse]

namespace Table

/-- `ConversationStore.save`: a row that is there keeps its user. -/
def saved (rows : List Row) (row : Row) : List Row :=
  if rows.any (·.conversationId = row.conversationId) then
    Lib.updateRows (·.conversationId = row.conversationId) (fun old => { row with userId := old.userId }) rows
  else rows ++ [row]

theorem saved_ids (rows : List Row) (row : Row) :
    (saved rows row).map (·.conversationId) =
      if row.conversationId ∈ rows.map (·.conversationId) then rows.map (·.conversationId)
      else rows.map (·.conversationId) ++ [row.conversationId] := by
  have hany : rows.any (·.conversationId = row.conversationId) = true ↔
      row.conversationId ∈ rows.map (·.conversationId) := by
    simp
  unfold saved
  by_cases hmem : row.conversationId ∈ rows.map (·.conversationId)
  · rw [if_pos (hany.mpr hmem), if_pos hmem, Lib.updateRows, List.map_map]
    refine List.map_congr_left fun old _ => ?_
    dsimp only [Function.comp_apply]
    split
    · next hold => exact (of_decide_eq_true hold).symm
    · rfl
  · rw [if_neg fun h => hmem (hany.mp h), if_neg hmem, List.map_append]
    rfl

def save (t : Table) (row : Row) : Table where
  rows := saved t.rows row
  nodup := by
    rw [saved_ids]
    split
    · exact t.nodup
    · next hnew => exact List.nodup_append_comm.mpr (List.nodup_cons.mpr ⟨hnew, t.nodup⟩)

variable {t : Table} {row other : Row}

theorem mem_save_of_ne (hmem : other ∈ t.rows) (hne : other.conversationId ≠ row.conversationId) :
    other ∈ (t.save row).rows := by
  unfold save saved
  dsimp only
  split
  · exact List.mem_map.mpr ⟨other, hmem, if_neg (by simpa using hne)⟩
  · exact List.mem_append_left _ hmem

/-- A row is written as it is, as long as the one in its place has the same user. -/
theorem mem_save (huser : ∀ old ∈ t.rows, old.conversationId = row.conversationId → old.userId = row.userId) :
    row ∈ (t.save row).rows := by
  unfold save saved
  dsimp only
  split
  · next hany =>
    obtain ⟨old, hold, hid⟩ := List.any_eq_true.mp hany
    have hid := of_decide_eq_true hid
    refine List.mem_map.mpr ⟨old, hold, ?_⟩
    rw [if_pos (decide_eq_true hid)]
    dsimp only
    rw [huser old hold hid]
  · exact List.mem_append_right _ (List.mem_singleton_self _)

/-- Where a row of the table comes from. -/
theorem of_mem_save (hmem : other ∈ (t.save row).rows) :
    other ∈ t.rows ∨ other.conversationId = row.conversationId ∧
      (other.userId = row.userId ∨
        ∃ old ∈ t.rows, old.conversationId = row.conversationId ∧ old.userId = other.userId) := by
  unfold save saved at hmem
  dsimp only at hmem
  split at hmem
  · obtain ⟨old, hold, heq⟩ := List.mem_map.mp hmem
    split at heq
    · next hid =>
      subst heq
      exact .inr ⟨rfl, .inr ⟨old, hold, of_decide_eq_true hid, rfl⟩⟩
    · exact .inl (heq ▸ hold)
  · rcases List.mem_append.mp hmem with hold | hnew
    · exact .inl hold
    · obtain rfl := List.mem_singleton.mp hnew
      exact .inr ⟨rfl, .inl rfl⟩

end Table

/-- A row of the table decodes to the conversation. -/
def InStep (t : Table) (c : String) (conv : BrainConversation) : Prop :=
  ∃ row ∈ t.rows, row.conversationId = c ∧ row.conversation conv.updatedAt = conv

/-! ## What a start gives back -/

section

variable {now : Int} {s : Engine} {c : String} {conv : BrainConversation}

/-- Rows of other conversations leave one as it is. -/
theorem load_of_ne (rows : List Row) (hne : ∀ row ∈ rows, row.conversationId ≠ c) :
    (rows.foldl (Engine.load now) s).objects c = s.objects c ∧
      (rows.foldl (Engine.load now) s).tracked c = s.tracked c := by
  induction rows generalizing s with
  | nil => exact ⟨rfl, rfl⟩
  | cons row rows ih =>
    rw [List.forall_mem_cons] at hne
    have hfirst : c ≠ row.conversationId := hne.1.symm
    obtain ⟨hobjects, htracked⟩ := ih (s := s.load now row) hne.2
    refine ⟨hobjects.trans ?_, htracked.trans ?_⟩
    · simp [Engine.load, hfirst]
    · simp [Engine.load, hfirst]

theorem load_object (rows : List Row) (h : (rows.foldl (Engine.load now) s).objects c = some conv) :
    s.objects c = some conv ∨ ∃ row ∈ rows, row.conversationId = c ∧ row.conversation now = conv := by
  induction rows generalizing s with
  | nil => exact .inl h
  | cons row rows ih =>
    rcases ih h with hload | ⟨row', hmem, hrow⟩
    · by_cases hc : c = row.conversationId
      · subst hc
        simp only [Engine.load, Function.update_self, Option.some.injEq] at hload
        exact .inr ⟨row, List.mem_cons_self, rfl, hload⟩
      · simp only [Engine.load, Function.update_of_ne hc] at hload
        exact .inl hload
    · exact .inr ⟨row', List.mem_cons_of_mem _ hmem, hrow⟩

theorem loaded_inStep (table : Table) (h : (Engine.loadActiveConversations table now).objects c = some conv) :
    InStep table c conv := by
  rcases load_object _ h with hnone | ⟨row, hmem, hid, rfl⟩
  · cases hnone
  · exact ⟨row, List.mem_of_mem_filter hmem, hid, rfl⟩

theorem conversation?_load {table : Table} {row : Row} (hrow : row ∈ table.rows) (hactive : row.isActive = true) :
    (Engine.loadActiveConversations table now).conversation? row.conversationId = some (row.conversation now) := by
  have hmem : row ∈ table.rows.filter Row.isActive := List.mem_filter.mpr ⟨hrow, hactive⟩
  have hnodup : ((table.rows.filter Row.isActive).map (·.conversationId)).Nodup :=
    table.nodup.sublist (List.filter_sublist.map _)
  obtain ⟨before, after, hsplit⟩ := List.append_of_mem hmem
  have hafter : ∀ row' ∈ after, row'.conversationId ≠ row.conversationId := by
    intro row' hmem' heq
    rw [hsplit, List.map_append, List.map_cons] at hnodup
    exact (List.nodup_cons.mp (List.nodup_append.mp hnodup).2.1).1 (heq ▸ List.mem_map_of_mem hmem')
  rw [Engine.loadActiveConversations, hsplit, List.foldl_append, List.foldl_cons, Engine.conversation?]
  obtain ⟨hobjects, htracked⟩ :=
    @load_of_ne now ((before.foldl (Engine.load now) {}).load now row) _ after hafter
  rw [hobjects, htracked]
  simp [Engine.load]

/-- A restart goes on with the conversation as it was. -/
theorem InStep.reloaded {t : Table} (h : InStep t c conv) (hopen : conv.isTerminal = false) (now : Int) :
    (Engine.loadActiveConversations t now).conversation? c = some (conv.touch now) := by
  obtain ⟨row, hmem, rfl, hrow⟩ := h
  have hactive : row.isActive = true := by
    by_contra hinactive
    have hterminal := @Row.isTerminal_of_inactive row conv.updatedAt (Bool.not_eq_true _ ▸ hinactive)
    rw [hrow, hopen] at hterminal
    cases hterminal
  rw [conversation?_load hmem hactive, ← hrow]
  rfl

end

/-! ## Saves -/

/-- The call has not come back. -/
def Stage.atWork : Stage → Bool
  | .returned _ => false
  | _ => true

/-- The call waits for the store. -/
def Stage.saves : Stage → Bool
  | .persisting _ | .persistingAgain _ => true
  | _ => false

/-- The message is no answer to where the conversation is: it starts another one. -/
def BrainConversation.startsOther (conv : BrainConversation) (message : String) : Bool :=
  match conv.phase with
  | .dispatch | .monitor => !stops message && !mentions (normalized message) statusKeywords
  | .deliver => (rating? message).isNone
  | _ => false

/-- The phases that have a handler. -/
def FlowPhase.hasHandler : FlowPhase → Bool
  | .plan | .completed | .cancelled => false
  | _ => true

theorem BrainConversation.startsOther_of_handle {route : String → RouteDecision} {conv conv' : BrainConversation}
    {message : String} (h : conv.handle route message = some (conv', none)) : conv.startsOther message = true := by
  unfold handle at h
  unfold startsOther
  split at h
  case h_1 => simp [Prod.ext_iff] at h
  case h_2 => simp [Prod.ext_iff] at h
  case h_3 => simp [Prod.ext_iff] at h
  case h_4 hphase | h_5 hphase =>
    have hmonitor := congrArg Prod.snd (Option.some.inj h)
    simp only [handleDispatchPhase, handleMonitor] at hmonitor
    rw [hphase]
    split at hmonitor
    · cases hmonitor
    · next hstop =>
      split at hmonitor
      · cases hmonitor
      · next hstatus => simp [hstop, hstatus]
  case h_6 hphase =>
    have hdeliver := congrArg Prod.snd (Option.some.inj h)
    rw [handleDeliver] at hdeliver
    rw [hphase]
    split at hdeliver
    · cases hdeliver
    · next hrating => simp [hrating]
  all_goals cases h

theorem BrainConversation.hasHandler_of_handle {route : String → RouteDecision} {conv : BrainConversation}
    {message : String} (h : conv.handle route message = none) : conv.phase.hasHandler = false := by
  unfold handle at h
  split at h
  case h_7 hphase | h_8 hphase | h_9 hphase => rw [hphase]; rfl
  all_goals cases h

/-- The engine, the rows of its store and what the saves that are under way write. -/
structure Persisted where
  engine : Engine
  table : Table
  saving : CallId → Option Row := fun _ => none

namespace Engine

/-- The call that an event lets go on. -/
def goesOn (s : Engine) : Event → Option CallId
  | .receive id _ _ killSwitch w =>
    if killSwitch ∨ (s.call? id).isSome ∨ (s.objects (w.uuid 0)).isSome then none else some id
  | .resume id w =>
    (s.call? id).bind fun call =>
      if (s.objects call.conversationId).isSome ∧ s.objects (w.uuid 0) = none then some id else none
  | .complete .. => none

/-- What a call that waits for the store saves there. -/
def saves? (s : Engine) (id : CallId) : Option Row :=
  (s.call? id).bind fun call =>
    if call.stage.saves then (s.objects call.conversationId).map (·.row call.conversationId) else none

/-- A call is at work on the conversation. -/
def isAtWork (s : Engine) (c : String) : Bool :=
  s.calls.any fun entry => (s.call? entry.1).any fun call => call.conversationId = c && call.stage.atWork

def othersAtWork (s : Engine) (id : CallId) (c : String) : Bool :=
  s.calls.any fun entry =>
    entry.1 ≠ id && (s.call? entry.1).any fun call => call.conversationId = c && call.stage.atWork

end Engine

namespace Persisted

/-- The id that an event would draw is that of a row. -/
def drawsRow (s : Persisted) : Event → Bool
  | .receive _ _ _ _ w | .resume _ w => s.table.rows.any (·.conversationId = w.uuid 0)
  | .complete .. => false

/-- A call that goes on from a save has its row written. An id that was drawn before makes no event. -/
def step (cfg : Config) (s : Persisted) (e : Event) : Persisted :=
  if s.drawsRow e then s
  else
    let engine := BrainFlow.step cfg s.engine e
    match s.engine.goesOn e with
    | none => { s with engine }
    | some id =>
      { engine
        table := ((s.saving id).map s.table.save).getD s.table
        saving := Function.update s.saving id (engine.saves? id) }

/-- The engine after a start with the rows of the table. -/
def start (table : Table) (now : Int) : Persisted where
  engine := .loadActiveConversations table now
  table := table

/-- The save of the call writes the conversation as it is, or another call is yet to save it. -/
def SavesLast (s : Persisted) (id : CallId) (c : String) : Prop :=
  s.saving id = (s.engine.objects c).map (·.row c) ∨ s.engine.othersAtWork id c = true

/-- What is saved in the end. Only a call at work saves what `complete_task` changes; a message
that starts another conversation leaves that one unsaved; and no save is overtaken. -/
def KeepsRows (s : Persisted) : Event → Prop
  | .receive .. => True
  | .resume id _ =>
    match s.engine.call? id with
    | some ⟨c, .persisting message⟩ =>
      ∀ conv ∈ s.engine.objects c,
        conv.startsOther message = false ∧ (conv.phase.hasHandler = true ∨ s.SavesLast id c)
    | some ⟨c, .persistingAgain _⟩ => s.SavesLast id c
    | _ => True
  | .complete c .. => s.engine.conversation? c = none ∨ s.engine.isAtWork c = true

end Persisted

/-! ## What one stretch of a call changes -/

section

variable {s s' : Engine} {c c' : String} {id : CallId} {conv : BrainConversation} {cfg : Config} {w : World}
  {message : String} {conversationId : Option String} {stage : Stage} {d : Dispatch}

theorem userId_unhandled : Unhandled BrainConversation.userId where
  touch _ _ := rfl
  handle := BrainConversation.handle_userId

theorem isAtWork_iff : s.isAtWork c = true ↔ ∃ id stage, s.call? id = some ⟨c, stage⟩ ∧ stage.atWork = true := by
  simp only [Engine.isAtWork, List.any_eq_true, Option.any_eq_true, Bool.and_eq_true, decide_eq_true_eq]
  constructor
  · rintro ⟨entry, -, ⟨c', stage⟩, hcall, rfl, hstage⟩
    exact ⟨entry.1, stage, hcall, hstage⟩
  · rintro ⟨id, stage, hcall, hstage⟩
    obtain ⟨call', hmem⟩ := mem_calls_of_call? hcall
    exact ⟨(id, call'), hmem, ⟨c, stage⟩, hcall, rfl, hstage⟩

theorem exists_of_othersAtWork (h : s.othersAtWork id c = true) :
    ∃ id' stage, id' ≠ id ∧ s.call? id' = some ⟨c, stage⟩ ∧ stage.atWork = true := by
  simp only [Engine.othersAtWork, List.any_eq_true, Option.any_eq_true, Bool.and_eq_true, decide_eq_true_eq] at h
  obtain ⟨entry, -, hne, ⟨c', stage⟩, hcall, rfl, hstage⟩ := h
  exact ⟨entry.1, stage, hne, hcall, hstage⟩

theorem object_of_isLive {now : Int} (h : s.isLive now c = true) : ∃ conv, s.objects c = some conv := by
  obtain ⟨conv, hconv, -⟩ := (Option.any_eq_true ..).mp h
  exact ⟨conv, Engine.objects_of_conversation? hconv⟩

/-- The conversation that a message goes to is there, and if it is new it has the id that was drawn. -/
theorem getOrCreate_object (s : Engine) (user : String) (conversationId : Option String) (w : World) :
    let r := s.getOrCreateConversation user conversationId w
    (∃ conv, r.1.objects r.2 = some conv) ∧ (s.objects r.2 = none → r.2 = w.uuid 0) ∧
      ∀ c ≠ r.2, r.1.objects c = s.objects c := by
  unfold Engine.getOrCreateConversation Engine.getActiveConversations
  split
  · next c hask =>
    have hlive := (Option.filter_eq_some_iff.mp hask).2
    simp only [decide_eq_true_eq, Bool.and_eq_true] at hlive
    obtain ⟨conv, hconv⟩ := object_of_isLive hlive.2
    exact ⟨⟨conv, hconv⟩, fun hnone => absurd (hconv.symm.trans hnone) (by simp), fun _ _ => rfl⟩
  · dsimp only
    split
    · next c hlast =>
      have hmem := List.mem_of_getLast? hlast
      obtain ⟨conv, hconv⟩ := object_of_isLive (List.mem_filter.mp hmem).2
      exact ⟨⟨conv, hconv⟩, fun hnone => absurd (hconv.symm.trans hnone) (by simp), fun _ _ => rfl⟩
    · exact ⟨⟨_, by simp; rfl⟩, fun _ => rfl, fun c hc => by simp [hc]⟩

/-- A call at work holds its conversation, and changes no other. -/
structure GoesOn (s s' : Engine) (id : CallId) (c : String) (stage : Stage) : Prop where
  call : s'.call? id = some ⟨c, stage⟩
  others : ∀ id' ≠ id, s'.call? id' = s.call? id'
  objects : ∀ c' ≠ c, s'.objects c' = s.objects c'

theorem GoesOn.await (hobjects : ∀ c' ≠ c, s'.objects c' = s.objects c') (hcalls : s'.call? = s.call?) :
    GoesOn s (s'.await id c stage) id c stage where
  call := s'.call?_await_self ..
  others id' hne := by rw [Engine.call?_await, if_neg hne, hcalls]
  objects := hobjects

theorem receive_goesOn (s : Engine) (id : CallId) (message : String) (conversationId : Option String) (w : World) :
    ∃ c, GoesOn s (s.receive id message conversationId w) id c (.persisting message) ∧
      (s.objects c = none → c = w.uuid 0) := by
  obtain ⟨⟨conv, hconv⟩, hnew, hobjects⟩ :=
    getOrCreate_object (s.expireConversations id.user w.now) id.user conversationId w
  unfold Engine.receive
  dsimp only
  rw [hconv]
  refine ⟨_, .await (fun c' hne => ?_) (funext fun id' => ?_), hnew⟩
  · rw [Engine.objects_note, Engine.objects_put, if_neg hne]
    exact hobjects c' hne
  · rw [Engine.call?_note, Engine.call?_put, Engine.call?_getOrCreateConversation, Engine.call?_expireConversations]

theorem next_goesOn (s : Engine) (id : CallId) (c : String) (conv : BrainConversation) (d : Dispatch) (w : World) :
    ∃ stage, GoesOn s (s.nextStep id c conv d w) id c stage ∧ stage.atWork = true := by
  unfold Engine.nextStep
  split
  · exact ⟨_, .await (fun _ _ => rfl) rfl, rfl⟩
  · exact ⟨_, .await (fun c' hne => by rw [Engine.objects_put, if_neg hne]) rfl, rfl⟩

theorem dispatch_goesOn (cfg : Config) (s : Engine) (id : CallId) (c : String) (conv : BrainConversation) (w : World) :
    ∃ stage, GoesOn s (s.dispatchTasks cfg id c conv w) id c stage ∧ stage.atWork = true := by
  unfold Engine.dispatchTasks
  split
  · exact ⟨_, .await (fun c' hne => by rw [Engine.objects_put, if_neg hne]) rfl, rfl⟩
  · dsimp only
    split
    · exact ⟨_, .await (fun _ _ => rfl) rfl, rfl⟩
    · exact ⟨_, .await (fun c' hne => by rw [Engine.objects_put, if_neg hne, Engine.objects_note]) rfl, rfl⟩

theorem Handled.atWork_stage (handled : Handled) : handled.stage.atWork = true := by
  cases handled <;> rfl

/-- A message is handled in its conversation, or one without a handler in a new one. -/
theorem route_goesOn (cfg : Config) (s : Engine) (id : CallId) (c : String) (conv : BrainConversation) (message : String)
    (w : World) (hown : conv.startsOther message = false) :
    ∃ c' stage, GoesOn s (s.routeMessage cfg id c conv message w) id c' stage ∧ stage.atWork = true ∧
      (c' = c ∨ c' = w.uuid 0 ∧ conv.phase.hasHandler = false) := by
  unfold Engine.routeMessage
  dsimp only
  split
  · next conv' handled _ =>
    refine ⟨c, _, .await (fun c' hne => ?_) rfl, handled.atWork_stage, .inl rfl⟩
    rw [Engine.objects_put, if_neg hne, Engine.objects_note]
  · next conv' hhandle =>
    rw [BrainConversation.startsOther_of_handle hhandle] at hown
    cases hown
  · next hhandle =>
    refine ⟨w.uuid 0, _, .await (fun c' hne => ?_) rfl, Handled.atWork_stage _, .inr ⟨rfl, ?_⟩⟩
    · simp [Engine.startConversation, hne]
    · exact BrainConversation.hasHandler_of_handle hhandle

theorem carries_complete (text : Value → String) (taskId : String) (result : Dict Value) (now : Int) :
    Carries BrainConversation.userId c s (s.completeTask text c' taskId result now).1 := by
  unfold Engine.completeTask
  split
  · exact .of_eq rfl
  · next conv hconv =>
    have hobject := Engine.objects_of_conversation? hconv
    dsimp only
    split
    · exact carries_put hobject fun _ => rfl
    · exact carries_put hobject fun _ => rfl

theorem call?_complete (text : Value → String) (s : Engine) (c taskId : String) (result : Dict Value) (now : Int) :
    (s.completeTask text c taskId result now).1.call? = s.call? := by
  unfold Engine.completeTask
  split
  · rfl
  · dsimp only
    split <;> rfl

theorem carries_resume (hconv : s.objects c' = some conv) (hfresh : s.objects (w.uuid 0) = none) :
    Carries BrainConversation.userId c s (s.resume cfg id c' conv w stage) := by
  have hput {s' : Engine} (conv' : BrainConversation) (hobjects : s'.objects = (s.put c' conv').objects)
      (huser : conv'.userId = conv.userId) : Carries BrainConversation.userId c s s' :=
    (carries_put hconv fun _ => huser).trans (.of_eq (congrFun hobjects c))
  have hnext (d : Dispatch) : Carries BrainConversation.userId c s (s.nextStep id c' conv d w) := by
    unfold Engine.nextStep
    split
    · exact .of_eq rfl
    · exact hput _ rfl rfl
  cases stage with
  | savingApproval | persistingAgain | returned | addingTask => exact .of_eq rfl
  | gatheringContext => exact hnext _
  | runningTask => exact hnext _
  | persisting message => exact carries_route userId_unhandled hconv hfresh
  | updatingApproval =>
    rw [Engine.resume, Engine.dispatchTasks]
    split
    · exact hput _ rfl rfl
    · dsimp only
      split
      · exact .of_eq rfl
      · exact hput _ rfl rfl

end

/-! ## What a run keeps -/

namespace Persisted

/-- A conversation that no call is at work on is in step with its row. -/
structure Sound (s : Persisted) : Prop where
  saving : ∀ id row, s.saving id = some row →
    (∃ stage, s.engine.call? id = some ⟨row.conversationId, stage⟩ ∧ stage.saves = true) ∧
      ∃ conv, s.engine.objects row.conversationId = some conv ∧ conv.userId = row.userId
  rows : ∀ row ∈ s.table.rows, ∀ conv, s.engine.objects row.conversationId = some conv → conv.userId = row.userId
  inStep : ∀ c conv, s.engine.objects c = some conv → InStep s.table c conv ∨ s.engine.isAtWork c = true

variable {s : Persisted} {engine : Engine} {id : CallId} {c : String} {stage : Stage} {cfg : Config} {e : Event}

/-- The row that a call has written is one of the conversation that it held, by its user. -/
theorem Sound.rows_written (h : s.Sound) {row : Row}
    (hmem : row ∈ (((s.saving id).map s.table.save).getD s.table).rows) {conv : BrainConversation}
    (hconv : s.engine.objects row.conversationId = some conv) : conv.userId = row.userId := by
  cases hsaving : s.saving id with
  | none =>
    rw [hsaving] at hmem
    exact h.rows row hmem conv hconv
  | some saved =>
    rw [hsaving] at hmem
    obtain ⟨-, owner, howner, huser⟩ := h.saving id saved hsaving
    rcases Table.of_mem_save hmem with hold | ⟨hid, hwritten⟩
    · exact h.rows row hold conv hconv
    · rw [hid, howner] at hconv
      cases hconv
      rcases hwritten with hnew | ⟨old, hold, holdId, holdUser⟩
      · rw [huser, hnew]
      · rw [← holdUser]
        exact h.rows old hold _ (holdId ▸ howner)

/-- What was in step with its row is so after the save of a call on another conversation. -/
theorem Sound.inStep_written (h : s.Sound) {c' : String} {conv : BrainConversation} (hin : InStep s.table c' conv)
    (hother : ∀ stage, s.engine.call? id ≠ some ⟨c', stage⟩) :
    InStep (((s.saving id).map s.table.save).getD s.table) c' conv := by
  cases hsaving : s.saving id with
  | none => exact hin
  | some saved =>
    obtain ⟨⟨stage, hcall, -⟩, -⟩ := h.saving id saved hsaving
    obtain ⟨row, hmem, rfl, hrow⟩ := hin
    refine ⟨row, Table.mem_save_of_ne hmem fun hid => ?_, rfl, hrow⟩
    exact hother stage (hid ▸ hcall)

/-- A call that leaves a conversation leaves it in step, or to another call. -/
theorem Sound.saved_last (h : s.Sound) {conv : BrainConversation} (hconv : s.engine.objects c = some conv)
    (hlast : s.SavesLast id c) (hothers : ∀ id' ≠ id, engine.call? id' = s.engine.call? id') :
    InStep (((s.saving id).map s.table.save).getD s.table) c conv ∨ engine.isAtWork c = true := by
  rcases hlast with hsaving | hwork
  · rw [hconv] at hsaving
    refine .inl ⟨conv.row c, ?_, rfl, conv.conversation_row c⟩
    rw [hsaving]
    exact Table.mem_save fun old hold hid => (h.rows old hold conv (hid ▸ hconv)).symm
  · obtain ⟨id', stage, hne, hcall, hstage⟩ := exists_of_othersAtWork hwork
    exact .inr (isAtWork_iff.mpr ⟨id', stage, (hothers id' hne).trans hcall, hstage⟩)

/-- One stretch of a call. It stays at work on its conversation, or was the last to change it. -/
theorem Sound.goes_on (h : s.Sound) (hgoes : GoesOn s.engine engine id c stage)
    (huser : ∀ c, Carries BrainConversation.userId c s.engine engine)
    (hnew : s.engine.objects c = none → ∀ row ∈ s.table.rows, row.conversationId ≠ c)
    (hleft : ∀ c', (c' = c ∨ ∃ stage, s.engine.call? id = some ⟨c', stage⟩) →
      c' = c ∧ stage.atWork = true ∨ s.SavesLast id c' ∧ engine.objects c' = s.engine.objects c') :
    Sound
      { engine
        table := ((s.saving id).map s.table.save).getD s.table
        saving := Function.update s.saving id (engine.saves? id) } where
  saving id' row hsaving := by
    dsimp only at hsaving ⊢
    by_cases hid : id' = id
    · subst hid
      rw [Function.update_self, Engine.saves?, hgoes.call, Option.bind_some] at hsaving
      split at hsaving
      · next hstage =>
        obtain ⟨conv, hconv, rfl⟩ := Option.map_eq_some_iff.mp hsaving
        exact ⟨⟨stage, hgoes.call, hstage⟩, conv, hconv, rfl⟩
      · cases hsaving
    · rw [Function.update_of_ne hid] at hsaving
      obtain ⟨⟨stage', hcall, hstage⟩, conv, hconv, howner⟩ := h.saving id' row hsaving
      obtain ⟨conv', hconv', hsame⟩ := (huser row.conversationId).old conv hconv
      exact ⟨⟨stage', (hgoes.others id' hid).trans hcall, hstage⟩, conv', hconv', hsame.trans howner⟩
  rows row hmem conv' hconv' := by
    dsimp only at hmem hconv'
    cases hconv : s.engine.objects row.conversationId with
    | some conv =>
      obtain ⟨conv'', hconv'', hsame⟩ := (huser row.conversationId).old conv hconv
      obtain rfl := Option.some.inj (hconv'.symm.trans hconv'')
      exact hsame.trans (h.rows_written hmem hconv)
    | none =>
      have hc : row.conversationId = c := by
        by_contra hne
        rw [hgoes.objects _ hne, hconv] at hconv'
        cases hconv'
      cases hsaving : s.saving id with
      | none =>
        rw [hsaving] at hmem
        exact absurd hc (hnew (hc ▸ hconv) row hmem)
      | some saved =>
        rw [hsaving] at hmem
        obtain ⟨-, owner, howner, -⟩ := h.saving id saved hsaving
        rcases Table.of_mem_save hmem with hold | ⟨hid, -⟩
        · exact absurd hc (hnew (hc ▸ hconv) row hold)
        · rw [hid, howner] at hconv
          cases hconv
  inStep c' conv hconv := by
    dsimp only at hconv ⊢
    by_cases hheld : c' = c ∨ ∃ stage, s.engine.call? id = some ⟨c', stage⟩
    · rcases hleft c' hheld with ⟨rfl, hstage⟩ | ⟨hlast, hsame⟩
      · exact .inr (isAtWork_iff.mpr ⟨id, stage, hgoes.call, hstage⟩)
      · exact h.saved_last (hsame ▸ hconv) hlast hgoes.others
    · rw [not_or, not_exists] at hheld
      rw [hgoes.objects c' hheld.1] at hconv
      rcases h.inStep c' conv hconv with hin | hwork
      · exact .inl (h.inStep_written hin hheld.2)
      · obtain ⟨id', stage', hcall, hstage⟩ := isAtWork_iff.mp hwork
        have hid : id' ≠ id := by
          rintro rfl
          exact hheld.2 stage' hcall
        exact .inr (isAtWork_iff.mpr ⟨id', stage', (hgoes.others id' hid).trans hcall, hstage⟩)

variable {w : World} {conv : BrainConversation}

/-- A call that stays at work on its conversation. -/
theorem Sound.stays {stage' : Stage} (h : s.Sound) (hcall : s.engine.call? id = some ⟨c, stage⟩)
    (hconv : s.engine.objects c = some conv) (hgoes : GoesOn s.engine engine id c stage') (hstage : stage'.atWork = true)
    (huser : ∀ c, Carries BrainConversation.userId c s.engine engine) :
    Sound
      { engine
        table := ((s.saving id).map s.table.save).getD s.table
        saving := Function.update s.saving id (engine.saves? id) } := by
  refine h.goes_on hgoes huser (fun hnone => absurd (hconv.symm.trans hnone) (by simp)) fun c' hheld => .inl ⟨?_, hstage⟩
  rcases hheld with hsame | ⟨stage', hcall'⟩
  · exact hsame
  · exact (congrArg Call.conversationId (Option.some.inj (hcall.symm.trans hcall'))).symm

theorem Sound.receive {message : String} {conversationId : Option String} (h : s.Sound)
    (hid : s.engine.call? id = none) (hfresh : s.engine.objects (w.uuid 0) = none)
    (hdraw : ∀ row ∈ s.table.rows, row.conversationId ≠ w.uuid 0) :
    Sound
      { engine := s.engine.receive id message conversationId w
        table := ((s.saving id).map s.table.save).getD s.table
        saving := Function.update s.saving id ((s.engine.receive id message conversationId w).saves? id) } := by
  obtain ⟨c, hgoes, hnew⟩ := receive_goesOn s.engine id message conversationId w
  refine h.goes_on hgoes (fun c => carries_receive userId_unhandled hfresh) (fun hnone => ?_) fun c' hheld => ?_
  · rw [hnew hnone]
    exact hdraw
  · rcases hheld with rfl | ⟨stage, hcall⟩
    · exact .inl ⟨rfl, rfl⟩
    · rw [hid] at hcall
      cases hcall

theorem Sound.resume (h : s.Sound) (hok : s.KeepsRows (.resume id w)) (hcall : s.engine.call? id = some ⟨c, stage⟩)
    (hconv : s.engine.objects c = some conv) (hfresh : s.engine.objects (w.uuid 0) = none)
    (hdraw : ∀ row ∈ s.table.rows, row.conversationId ≠ w.uuid 0) :
    Sound
      { engine := s.engine.resume cfg id c conv w stage
        table := ((s.saving id).map s.table.save).getD s.table
        saving := Function.update s.saving id ((s.engine.resume cfg id c conv w stage).saves? id) } := by
  have huser (c' : String) :
      Carries BrainConversation.userId c' s.engine (s.engine.resume cfg id c conv w stage) :=
    carries_resume hconv hfresh
  simp only [KeepsRows, hcall] at hok
  cases stage with
  | savingApproval reply => exact h.stays hcall hconv (.await (fun _ _ => rfl) rfl) rfl huser
  | addingTask d task => exact h.stays hcall hconv (.await (fun _ _ => rfl) rfl) rfl huser
  | gatheringContext plan =>
    obtain ⟨stage', hgoes, hstage⟩ := next_goesOn s.engine id c conv { plan, toolContext := w.toolContext } w
    exact h.stays hcall hconv hgoes hstage huser
  | runningTask d task =>
    obtain ⟨stage', hgoes, hstage⟩ :=
      next_goesOn s.engine id c conv { d with results := d.results ++ [stepResult cfg.text task w.outcome] } w
    exact h.stays hcall hconv hgoes hstage huser
  | updatingApproval =>
    obtain ⟨stage', hgoes, hstage⟩ := dispatch_goesOn cfg s.engine id c conv w
    exact h.stays hcall hconv hgoes hstage huser
  | persistingAgain reply =>
    refine h.goes_on (.await (fun _ _ => rfl) rfl) huser (fun hnone => absurd (hconv.symm.trans hnone) (by simp))
      fun c' hheld => .inr ⟨?_, rfl⟩
    rcases hheld with rfl | ⟨stage', hcall'⟩
    · exact hok
    · rw [hcall] at hcall'
      cases hcall'
      exact hok
  | returned reply =>
    have hsaving : s.saving id = none := by
      by_contra hsome
      obtain ⟨row, hrow⟩ := Option.ne_none_iff_exists'.mp hsome
      obtain ⟨⟨stage', hcall', hstage'⟩, -⟩ := h.saving id row hrow
      rw [hcall] at hcall'
      cases hcall'
      cases hstage'
    have hsaves : s.engine.saves? id = s.saving id := by
      rw [hsaving]
      simp [Engine.saves?, hcall, Stage.saves]
    rw [Engine.resume, hsaves, Function.update_eq_self, hsaving]
    exact h
  | persisting message =>
    obtain ⟨hown, hhandler⟩ := hok conv hconv
    obtain ⟨c', stage', hgoes, hstage, rfl | ⟨rfl, hphase⟩⟩ := route_goesOn cfg s.engine id c conv message w hown
    · exact h.stays hcall hconv hgoes hstage huser
    · refine h.goes_on hgoes huser (fun _ => hdraw) fun c' hheld => ?_
      rcases hheld with rfl | ⟨stage', hcall'⟩
      · exact .inl ⟨rfl, hstage⟩
      · rw [hcall] at hcall'
        cases hcall'
        rw [hphase] at hhandler
        have hne : c ≠ w.uuid 0 := by
          rintro rfl
          rw [hconv] at hfresh
          cases hfresh
        exact .inr ⟨hhandler.resolve_left (by simp), hgoes.objects c hne⟩

theorem Sound.complete {taskId : String} {result : Dict Value} {now : Int} (h : s.Sound)
    (hok : s.KeepsRows (.complete c taskId result now)) :
    Sound { s with engine := (s.engine.completeTask cfg.text c taskId result now).1 } := by
  cases hconv : s.engine.conversation? c with
  | none =>
    have hsame : s.engine.completeTask cfg.text c taskId result now = (s.engine, none) := by
      rw [Engine.completeTask, hconv]
    rw [hsame]
    exact h
  | some conv =>
    have hwork : s.engine.isAtWork c = true := by
      rcases hok with hnone | hwork
      · rw [hconv] at hnone
        cases hnone
      · exact hwork
    have hcalls := call?_complete cfg.text s.engine c taskId result now
    have huser (c' : String) := @carries_complete s.engine c' c cfg.text taskId result now
    have hobject := Engine.objects_of_conversation? hconv
    refine ⟨fun id row hsaving => ?_, fun row hmem conv' hconv' => ?_, fun c' conv' hconv' => ?_⟩
    · obtain ⟨⟨stage, hcall, hstage⟩, old, hold, howner⟩ := h.saving id row hsaving
      obtain ⟨conv', hconv', hsame⟩ := (huser row.conversationId).old old hold
      exact ⟨⟨stage, (congrFun hcalls id).trans hcall, hstage⟩, conv', hconv', hsame.trans howner⟩
    · cases hold : s.engine.objects row.conversationId with
      | none =>
        have hne : row.conversationId ≠ c := by
          rintro heq
          rw [heq, hobject] at hold
          cases hold
        rw [completeTask_of_ne hne, hold] at hconv'
        cases hconv'
      | some old =>
        obtain ⟨conv'', hconv'', hsame⟩ := (huser row.conversationId).old old hold
        obtain rfl := Option.some.inj (hconv'.symm.trans hconv'')
        exact hsame.trans (h.rows row hmem old hold)
    · have hatWork {c' : String} (hbefore : s.engine.isAtWork c' = true) :
          (s.engine.completeTask cfg.text c taskId result now).1.isAtWork c' = true := by
        rw [isAtWork_iff] at hbefore ⊢
        rwa [hcalls]
      by_cases hne : c' = c
      · exact .inr (hatWork (hne ▸ hwork))
      · dsimp only at hconv'
        rw [completeTask_of_ne hne] at hconv'
        exact (h.inStep c' conv' hconv').imp_right hatWork

theorem Sound.step (h : s.Sound) (hok : s.KeepsRows e) : (s.step cfg e).Sound := by
  unfold Persisted.step
  split
  · exact h
  · next hdraw =>
    cases e with
    | complete c taskId result now => exact h.complete hok
    | receive id message conversationId killSwitch w =>
      dsimp only [Engine.goesOn, BrainFlow.step]
      by_cases hguard :
        killSwitch = true ∨ (s.engine.call? id).isSome = true ∨ (s.engine.objects (w.uuid 0)).isSome = true
      · simp only [if_pos hguard]
        exact h
      · simp only [if_neg hguard]
        simp only [not_or, Option.not_isSome_iff_eq_none] at hguard
        refine h.receive hguard.2.1 hguard.2.2 fun row hmem heq => hdraw ?_
        exact List.any_eq_true.mpr ⟨row, hmem, decide_eq_true heq⟩
    | resume id w =>
      have hrows : ∀ row ∈ s.table.rows, row.conversationId ≠ w.uuid 0 := fun row hmem heq =>
        hdraw (List.any_eq_true.mpr ⟨row, hmem, decide_eq_true heq⟩)
      dsimp only [Engine.goesOn, BrainFlow.step]
      cases hcall : s.engine.call? id with
      | none => exact h
      | some call =>
        dsimp only [Option.bind_some]
        cases hconv : s.engine.objects call.conversationId with
        | none => exact h
        | some conv =>
          cases hfresh : s.engine.objects (w.uuid 0) with
          | some old => simpa using h
          | none => simpa using h.resume hok hcall hconv hfresh hrows

theorem sound_start (table : Table) (now : Int) : (start table now).Sound where
  saving id row hsaving := by cases hsaving
  rows row hmem conv hconv := by
    obtain ⟨row', hmem', hid, hrow⟩ := loaded_inStep table hconv
    have hsame : row' = row := List.inj_on_of_nodup_map table.nodup hmem' hmem hid
    rw [← hrow, hsame]
    rfl
  inStep c conv hconv := .inl (loaded_inStep table hconv)

def henrysRun (events : List Event) : Persisted := Lib.run (step (coreConfig false)) (start emptyTable 0) events

/-- A task is reported while the plan waits for its confirmation. -/
def reported : List Event := Watched.planned ++ [.complete "a0" "ghost" [] 0]

/-- Another matter comes up while the tasks are under way. -/
def interrupted : List Event :=
  Watched.handedOut ++ [.receive ⟨"henry", 3⟩ "Check the budget" none false (world "h"),
    .resume ⟨"henry", 3⟩ (world "i"), .resume ⟨"henry", 3⟩ (world "j")]

end Persisted

end Occp.BrainFlow
