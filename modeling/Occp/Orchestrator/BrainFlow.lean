import Mathlib.Logic.Function.Basic
import Occp.Lib.Runs
import Occp.Orchestrator.BrainConversation

/-!
# The conversation flow engine (`orchestrator/brain_flow.py`)

Calls of `process_message` in any interleaving. Between two awaits a call runs alone, and
at each await it waits until an event resumes it; an await that returns at once is one
whose call is resumed next. Stores only keep what they are given, and their exceptions are
logged.
-/

namespace Occp.BrainFlow

/-- The number counts the calls of one user. -/
structure CallId where
  user : String
  number : Nat
  deriving DecidableEq

/-- What `pipeline.run` comes back with. -/
inductive RunOutcome where
  | returned (result : PipelineResult)
  | raised (text : String)

/-- The local variables of the loop over the steps. -/
structure Dispatch where
  plan : Plan
  toolContext : String
  taskIds : List String := []
  results : List StepResult := []

/-- Where a call waits, with what it has at hand there. -/
inductive Stage where
  | persisting (message : String)
  | savingApproval (reply : Reply)
  | updatingApproval
  | gatheringContext (plan : Plan)
  | addingTask (d : Dispatch) (task : Task)
  | runningTask (d : Dispatch) (task : Task)
  | persistingAgain (reply : Reply)
  | returned (reply : Reply)

/-- A call and the conversation that it holds. -/
structure Call where
  conversationId : String
  stage : Stage

inductive Note where
  | received (call : CallId) (conversationId : String) (phase : FlowPhase) (message : String)
  | routed (call : CallId) (conversationId : String) (phase : FlowPhase) (message : String)
  | dispatched (call : CallId) (conversationId : String) (plan : Plan)
  | ran (call : CallId) (conversationId : String) (step : Nat) (task : Task)

namespace Handled

def stage : Handled → Stage
  | reply r => .persistingAgain r
  | savingApproval r => .savingApproval r
  | updatingApproval => .updatingApproval

/-- `result["conversation_id"] = c`. -/
def named (c : String) : Handled → Handled
  | reply r => reply { r with conversationId := some c }
  | savingApproval r => savingApproval { r with conversationId := some c }
  | updatingApproval => updatingApproval

end Handled

def Note.call : Note → CallId
  | received call .. | routed call .. | dispatched call .. | ran call .. => call

/-- What the code gets from outside between two awaits. -/
structure World where
  now : Int
  uuid : Nat → String
  toolContext : String := ""
  outcome : RunOutcome := .raised ""

structure Config where
  route : String → RouteDecision
  /-- Whether a pipeline is wired. -/
  pipeline : Bool
  /-- `str` of a value that is no string. -/
  text : Value → String

/-! ## One step of a plan -/

def riskLevel (level : String) : RiskLevel :=
  match level with
  | "medium" => .medium
  | "high" => .high
  | "critical" => .critical
  | _ => .low

def cut (n : Nat) (s : String) : String := String.ofList (s.toList.take n)

def orElse (s other : String) : String := if s = "" then other else s

def fullContext (conv : BrainConversation) (toolContext : String) (step : PlanStep) : String :=
  "Te a(z) " ++ step.agent ++ " agent vagy az OCCP rendszerben.\nFeladat: " ++ step.description ++
    "\n\n--- EREDETI DIREKTÍVA ---\n" ++ cut 2000 conv.originalMessage ++ "\n" ++
    if toolContext = "" then "" else "\n--- ÉLŐ WORDPRESS ADATOK ---\n" ++ toolContext ++ "\n"

def stepTask (conversationId : String) (conv : BrainConversation) (d : Dispatch) (step : PlanStep) (taskId : String) :
    Task where
  id := taskId
  name := if step.description = "" then step.agent ++ " feladat" else cut 80 step.description
  description := orElse step.description (step.agent ++ " agent feladat vegrehajtasa")
  agentType := step.agent
  riskLevel := riskLevel d.plan.riskLevel
  metadata :=
    [("conversation_id", .str conversationId),
      ("chat_id", .int ((Text.decimal? conv.userId.toList).getD 0)),
      ("brain_dispatched", .bool true),
      ("full_context", .str (fullContext conv d.toolContext step))]

def stepResult (text : Value → String) (task : Task) : RunOutcome → StepResult
  | .returned result =>
    { taskId := task.id
      agent := task.agentType
      success := result.success
      output := cut 500 (Text.inserted text ((result.evidence.get? "execution").getD (.str ""))) }
  | .raised error => { taskId := task.id, agent := task.agentType, success := false, output := "error: " ++ error }

def startedReply (plan : Plan) (taskIds : List String) : Reply where
  text := brain ++ "🚀 **Elinditva!**\n\n🤖 Dolgoznak: " ++ agents ", " plan.primaryAgent plan.supportAgents ++
    "\n📋 Feladatok: " ++ toString taskIds.length ++ "\n⏱ Becsult ido: " ++ plan.estimatedDuration ++
    "\n\nSzolok ha kesz, vagy kerdezz ra barmikor!"
  phase := "dispatch"
  actions := ["statusz", "leallitas"]
  metadata := .tasks taskIds

def finishedReply (d : Dispatch) : Reply :=
  let succeeded := d.results.countP (·.success)
  let total := d.results.length
  let line (r : StepResult) := (if r.success then "✅" else "❌") ++ " " ++ r.agent ++ ": " ++ cut 200 r.output
  { text := brain ++ "🏁 **Kesz!** " ++ toString succeeded ++ "/" ++ toString total ++ " feladat sikeres.\n\n" ++
      "\n".intercalate ((d.results.map line).take 10)
    phase := "completed"
    actions := ["uj feladat", "reszletek"]
    metadata := .outcome d.taskIds d.results succeeded total }

def noPlanReply : Reply where
  text := brain ++ "Nincs vegrehajtasi terv. Szolj ha ujra probalnad!"
  phase := "cancelled"
  actions := []

def deliveryReply (text : Value → String) (conversationId : String) (results : List (Dict Value)) : Reply :=
  let shown (r : Dict Value) (key fallback : String) := Text.inserted text ((r.get? key).getD (.str fallback))
  { text := brain ++ "✅ **Minden kesz!**\n\n" ++
      "\n".intercalate (results.map fun r => "  - " ++ shown r "task_id" "?" ++ ": " ++ shown r "summary" "kesz") ++
      "\n\nErtekelned 1-5 skalan?"
    phase := "deliver"
    actions := ["1", "2", "3", "4", "5"]
    metadata := .results results
    conversationId := some conversationId }

/-! ## The engine -/

/-- `objects` are all conversations that were ever made, `tracked` those that
`_conversations` has. Of the entries for one call the first counts. -/
@[ext] structure Engine where
  objects : String → Option BrainConversation := fun _ => none
  tracked : String → Bool := fun _ => false
  userConversations : String → List String := fun _ => []
  calls : List (CallId × Call) := []
  log : List Note := []

namespace Engine

/-- `_conversations.get(conversation_id)`. -/
def conversation? (s : Engine) (c : String) : Option BrainConversation := if s.tracked c then s.objects c else none

theorem objects_of_conversation? {s : Engine} {c : String} {conv : BrainConversation}
    (h : s.conversation? c = some conv) : s.objects c = some conv := by
  unfold conversation? at h
  split at h
  · exact h
  · cases h

def put (s : Engine) (c : String) (conv : BrainConversation) : Engine :=
  { s with objects := Function.update s.objects c (some conv) }

def call? (s : Engine) (id : CallId) : Option Call := s.calls.lookup id

/-- The call holds the conversation and waits. -/
def await (s : Engine) (id : CallId) (c : String) (stage : Stage) : Engine :=
  { s with calls := (id, ⟨c, stage⟩) :: s.calls }

def note (s : Engine) (n : Note) : Engine := { s with log := s.log ++ [n] }

@[simp] theorem objects_put (s : Engine) (c c' : String) (conv : BrainConversation) :
    (s.put c conv).objects c' = if c' = c then some conv else s.objects c' := by
  simp [put, Function.update_apply]

theorem objects_put_self (s : Engine) (c : String) (conv : BrainConversation) :
    (s.put c conv).objects c = some conv := by
  rw [objects_put, if_pos rfl]

@[simp] theorem call?_put (s : Engine) (c : String) (conv : BrainConversation) (id : CallId) :
    (s.put c conv).call? id = s.call? id := rfl

@[simp] theorem log_put (s : Engine) (c : String) (conv : BrainConversation) : (s.put c conv).log = s.log := rfl

@[simp] theorem objects_await (s : Engine) (id : CallId) (c : String) (stage : Stage) :
    (s.await id c stage).objects = s.objects := rfl

@[simp] theorem call?_await (s : Engine) (id id' : CallId) (c : String) (stage : Stage) :
    (s.await id c stage).call? id' = if id' = id then some ⟨c, stage⟩ else s.call? id' := by
  unfold await call?
  rw [List.lookup_cons]
  by_cases h : id' = id
  · rw [if_pos h, beq_iff_eq.mpr h]
  · rw [if_neg h, beq_eq_false_iff_ne.mpr h]

theorem call?_await_self (s : Engine) (id : CallId) (c : String) (stage : Stage) :
    (s.await id c stage).call? id = some ⟨c, stage⟩ := by
  rw [call?_await, if_pos rfl]

@[simp] theorem log_await (s : Engine) (id : CallId) (c : String) (stage : Stage) :
    (s.await id c stage).log = s.log := rfl

@[simp] theorem objects_note (s : Engine) (n : Note) : (s.note n).objects = s.objects := rfl

@[simp] theorem call?_note (s : Engine) (n : Note) (id : CallId) : (s.note n).call? id = s.call? id := rfl

@[simp] theorem log_note (s : Engine) (n : Note) : (s.note n).log = s.log ++ [n] := rfl

/-! ### Conversation management -/

def isStale (s : Engine) (now : Int) (c : String) : Bool := (s.objects c).any (·.isExpired now)

def expireConversations (s : Engine) (user : String) (now : Int) : Engine :=
  let ids := s.userConversations user
  { s with
    tracked := fun c => s.tracked c && !(ids.contains c && s.isStale now c)
    userConversations := Function.update s.userConversations user (ids.filter fun c => s.tracked c && !s.isStale now c) }

@[simp] theorem objects_expireConversations (s : Engine) (user : String) (now : Int) :
    (s.expireConversations user now).objects = s.objects := rfl

@[simp] theorem call?_expireConversations (s : Engine) (user : String) (now : Int) (id : CallId) :
    (s.expireConversations user now).call? id = s.call? id := rfl

@[simp] theorem log_expireConversations (s : Engine) (user : String) (now : Int) :
    (s.expireConversations user now).log = s.log := rfl

theorem userConversations_expireConversations (s : Engine) (user : String) (now : Int) :
    (s.expireConversations user now).userConversations =
      Function.update s.userConversations user
        ((s.userConversations user).filter fun c => s.tracked c && !s.isStale now c) := rfl

theorem tracked_expireConversations (s : Engine) (user : String) (now : Int) (c : String) :
    (s.expireConversations user now).tracked c =
      (s.tracked c && !((s.userConversations user).contains c && s.isStale now c)) := rfl

/-- A conversation that a message still goes to. -/
def isLive (s : Engine) (now : Int) (c : String) : Bool :=
  (s.conversation? c).any fun conv => !conv.isTerminal && !conv.isExpired now

def enforceUserLimit (s : Engine) (user : String) : Engine :=
  let ids := s.userConversations user
  let excess := ids.length + 1 - maxConversationsPerUser
  { s with
    tracked := fun c => s.tracked c && !(ids.take excess).contains c
    userConversations := Function.update s.userConversations user (ids.drop excess) }

def createConversation (s : Engine) (user c : String) (now : Int) : Engine :=
  let s := s.enforceUserLimit user
  { s with
    objects := Function.update s.objects c (some { userId := user, updatedAt := now })
    tracked := Function.update s.tracked c true
    userConversations := Function.update s.userConversations user (s.userConversations user ++ [c]) }

@[simp] theorem objects_createConversation (s : Engine) (user c c' : String) (now : Int) :
    (s.createConversation user c now).objects c' =
      if c' = c then some { userId := user, updatedAt := now } else s.objects c' := by
  simp [createConversation, enforceUserLimit, Function.update_apply]

theorem userConversations_createConversation (s : Engine) (user c : String) (now : Int) :
    (s.createConversation user c now).userConversations =
      Function.update s.userConversations user
        ((s.userConversations user).drop ((s.userConversations user).length + 1 - maxConversationsPerUser) ++ [c]) := by
  simp [createConversation, enforceUserLimit]

theorem tracked_createConversation (s : Engine) (user c c' : String) (now : Int) :
    (s.createConversation user c now).tracked c' =
      if c' = c then true
      else s.tracked c' &&
        !((s.userConversations user).take
          ((s.userConversations user).length + 1 - maxConversationsPerUser)).contains c' := by
  simp [createConversation, enforceUserLimit, Function.update_apply]

@[simp] theorem call?_createConversation (s : Engine) (user c : String) (now : Int) (id : CallId) :
    (s.createConversation user c now).call? id = s.call? id := rfl

@[simp] theorem log_createConversation (s : Engine) (user c : String) (now : Int) :
    (s.createConversation user c now).log = s.log := rfl

def getActiveConversations (s : Engine) (user : String) (now : Int) : Engine × List String :=
  let s := s.expireConversations user now
  (s, (s.userConversations user).filter (s.isLive now))

def getOrCreateConversation (s : Engine) (user : String) (conversationId : Option String) (w : World) :
    Engine × String :=
  match conversationId.filter fun c => c ≠ "" && s.isLive w.now c with
  | some c => (s, c)
  | none =>
    let (s, active) := s.getActiveConversations user w.now
    match active.getLast? with
    | some c => (s, c)
    | none => (s.createConversation user (w.uuid 0) w.now, w.uuid 0)

theorem log_getOrCreateConversation (s : Engine) (user : String) (conversationId : Option String) (w : World) :
    (s.getOrCreateConversation user conversationId w).1.log = s.log := by
  unfold getOrCreateConversation getActiveConversations
  split
  · rfl
  · dsimp only
    split <;> rfl

theorem call?_getOrCreateConversation (s : Engine) (user : String) (conversationId : Option String) (w : World)
    (id : CallId) : (s.getOrCreateConversation user conversationId w).1.call? id = s.call? id := by
  unfold getOrCreateConversation getActiveConversations
  split
  · rfl
  · dsimp only
    split <;> rfl

/-! ### Tasks -/

def nextStep (s : Engine) (id : CallId) (c : String) (conv : BrainConversation) (d : Dispatch) (w : World) : Engine :=
  match d.plan.steps[d.results.length]? with
  | some step =>
    s.await id c (.addingTask { d with taskIds := d.taskIds ++ [w.uuid 0] } (stepTask c conv d step (w.uuid 0)))
  | none =>
    (s.put c { conv with dispatchedTasks := d.taskIds, phase := .completed }).await id c
      (.persistingAgain (finishedReply d))

theorem log_nextStep (s : Engine) (id : CallId) (c : String) (conv : BrainConversation) (d : Dispatch) (w : World) :
    (s.nextStep id c conv d w).log = s.log := by
  unfold nextStep
  split <;> rfl

def dispatchTasks (cfg : Config) (s : Engine) (id : CallId) (c : String) (conv : BrainConversation) (w : World) :
    Engine :=
  match conv.executionPlan with
  | none => (s.put c { conv with phase := .cancelled }).await id c (.persistingAgain noPlanReply)
  | some plan =>
    let s := s.note (.dispatched id c plan)
    if cfg.pipeline then s.await id c (.gatheringContext plan)
    else
      let taskIds := (List.range plan.steps.length).map w.uuid
      (s.put c { conv with dispatchedTasks := taskIds, phase := .monitor }).await id c
        (.persistingAgain (startedReply plan taskIds))

def completeTask (text : Value → String) (s : Engine) (c taskId : String) (result : Dict Value) (now : Int) :
    Engine × Option Reply :=
  match s.conversation? c with
  | none => (s, none)
  | some conv =>
    let conv := (conv.record taskId result).touch now
    if conv.dispatchedTasks.length ≤ conv.completed then
      (s.put c { conv with phase := .deliver }, some (deliveryReply text c conv.results))
    else (s.put c conv, none)

/-! ### Messages -/

def startConversation (cfg : Config) (s : Engine) (user c message : String) (now : Int) : Engine × Handled :=
  let s := s.createConversation user c now
  let (conv, handled) := BrainConversation.handleIntake cfg.route { userId := user, updatedAt := now } message
  (s.put c conv, handled)

/-- `process_message` up to its first `await`. -/
def receive (s : Engine) (id : CallId) (message : String) (conversationId : Option String) (w : World) : Engine :=
  let (s, c) := (s.expireConversations id.user w.now).getOrCreateConversation id.user conversationId w
  match s.objects c with
  | none => s
  | some conv =>
    ((s.put c (conv.touch w.now)).note (.received id c conv.phase message)).await id c (.persisting message)

/-- From there to the first `await` of the handler, or to its end. -/
def routeMessage (cfg : Config) (s : Engine) (id : CallId) (c : String) (conv : BrainConversation) (message : String)
    (w : World) : Engine :=
  let s := s.note (.routed id c conv.phase message)
  match conv.handle cfg.route message with
  | some (conv, some handled) => (s.put c conv).await id c handled.stage
  | some (conv, none) =>
    let (s, handled) := (s.put c conv).startConversation cfg conv.userId (w.uuid 0) message w.now
    s.await id c (handled.named (w.uuid 0)).stage
  | none =>
    let (s, handled) := s.startConversation cfg id.user (w.uuid 0) message w.now
    s.await id (w.uuid 0) handled.stage

/-- From one `await` of a call to the next. -/
def resume (cfg : Config) (s : Engine) (id : CallId) (c : String) (conv : BrainConversation) (w : World) :
    Stage → Engine
  | .persisting message => s.routeMessage cfg id c conv message w
  | .savingApproval reply => s.await id c (.persistingAgain reply)
  | .updatingApproval => s.dispatchTasks cfg id c conv w
  | .gatheringContext plan => s.nextStep id c conv { plan, toolContext := w.toolContext } w
  | .addingTask d task => (s.note (.ran id c d.results.length task)).await id c (.runningTask d task)
  | .runningTask d task =>
    s.nextStep id c conv { d with results := d.results ++ [stepResult cfg.text task w.outcome] } w
  | .persistingAgain reply =>
    s.await id c (.returned { reply with conversationId := reply.conversationId <|> some c })
  | .returned _ => s

end Engine

/-! ## Runs -/

inductive Event where
  | receive (id : CallId) (message : String) (conversationId : Option String) (killSwitch : Bool) (w : World)
  | resume (id : CallId) (w : World)
  | complete (conversationId taskId : String) (result : Dict Value) (now : Int)

/-- A call whose number was used, an id that was drawn before and a call that is not there
make no event. -/
def step (cfg : Config) (s : Engine) : Event → Engine
  | .receive id message conversationId killSwitch w =>
    if killSwitch ∨ (s.call? id).isSome ∨ (s.objects (w.uuid 0)).isSome then s
    else s.receive id message conversationId w
  | .resume id w =>
    match s.call? id with
    | none => s
    | some call =>
      match s.objects call.conversationId with
      | none => s
      | some conv =>
        if (s.objects (w.uuid 0)).isSome then s else s.resume cfg id call.conversationId conv w call.stage
  | .complete c taskId result now => (s.completeTask cfg.text c taskId result now).1

inductive Steps (cfg : Config) (s : Engine) : Event → Engine → Prop where
  | nothing (e : Event) : Steps cfg s e s
  | received (id : CallId) (message : String) (conversationId : Option String) (w : World) (hid : s.call? id = none)
    (hfresh : s.objects (w.uuid 0) = none) :
    Steps cfg s (.receive id message conversationId false w) (s.receive id message conversationId w)
  | resumed (id : CallId) (w : World) (c : String) (stage : Stage) (conv : BrainConversation)
    (hcall : s.call? id = some ⟨c, stage⟩) (hconv : s.objects c = some conv) (hfresh : s.objects (w.uuid 0) = none) :
    Steps cfg s (.resume id w) (s.resume cfg id c conv w stage)
  | completed (c taskId : String) (result : Dict Value) (now : Int) :
    Steps cfg s (.complete c taskId result now) (s.completeTask cfg.text c taskId result now).1

theorem step_spec (cfg : Config) (s : Engine) (e : Event) : Steps cfg s e (step cfg s e) := by
  cases e with
  | receive id message conversationId killSwitch w =>
    rw [step]
    split
    · exact .nothing _
    · next hnot =>
      simp only [not_or, Bool.not_eq_true, Option.isSome_eq_false_iff, Option.isNone_iff_eq_none] at hnot
      obtain ⟨rfl, hid, hfresh⟩ := hnot
      exact .received id message conversationId w hid hfresh
  | resume id w =>
    rw [step]
    split
    · exact .nothing _
    · next call hcall =>
      split
      · exact .nothing _
      · next conv hconv =>
        split
        · exact .nothing _
        · next hfresh =>
          exact .resumed id w call.conversationId call.stage conv hcall hconv (Option.not_isSome_iff_eq_none.mp hfresh)
  | complete c taskId result now => exact .completed c taskId result now

/-! ## The start -/

/-- A row of `brain_conversations`. -/
structure Row where
  conversationId : String
  userId : String
  phase : String
  originalMessage : String := ""
  clarifyingQuestions : List String := []
  clarifyingAnswers : List String := []
  executionPlan : Option Plan := none
  planApproved : Bool := false
  dispatchedTasks : List String := []
  results : List (Dict Value) := []
  feedbackScore : Option Nat := none

/-- What the query for active conversations selects. -/
def Row.isActive (row : Row) : Bool := !(["completed", "cancelled"].contains row.phase)

def Row.conversation (row : Row) (now : Int) : BrainConversation where
  userId := row.userId
  phase := (FlowPhase.parse? row.phase).getD .intake
  originalMessage := row.originalMessage
  clarifyingQuestions := row.clarifyingQuestions
  clarifyingAnswers := row.clarifyingAnswers
  executionPlan := row.executionPlan
  planApproved := row.planApproved
  dispatchedTasks := row.dispatchedTasks
  results := row.results
  feedbackScore := row.feedbackScore
  updatedAt := now

/-- The primary key is the conversation id. -/
structure Table where
  rows : List Row
  nodup : (rows.map (·.conversationId)).Nodup

namespace Engine

def load (now : Int) (s : Engine) (row : Row) : Engine :=
  { s with
    objects := Function.update s.objects row.conversationId (some (row.conversation now))
    tracked := Function.update s.tracked row.conversationId true
    userConversations :=
      Function.update s.userConversations row.userId (s.userConversations row.userId ++ [row.conversationId]) }

/-- A new engine after `load_active_conversations`. -/
def loadActiveConversations (table : Table) (now : Int) : Engine :=
  (table.rows.filter Row.isActive).foldl (load now) {}

/-- No call came through a start. -/
theorem calls_loadActiveConversations (table : Table) (now : Int) :
    (loadActiveConversations table now).calls = [] ∧ (loadActiveConversations table now).log = [] := by
  have hload : ∀ (rows : List Row) (s : Engine), s.calls = [] ∧ s.log = [] →
      (rows.foldl (load now) s).calls = [] ∧ (rows.foldl (load now) s).log = [] := by
    intro rows
    induction rows with
    | nil => exact fun s h => h
    | cons row rows ih => exact fun s h => ih (s.load now row) h
  exact hload _ {} ⟨rfl, rfl⟩

theorem call?_loadActiveConversations (table : Table) (now : Int) (id : CallId) :
    (loadActiveConversations table now).call? id = none := by
  rw [call?, (calls_loadActiveConversations table now).1, List.lookup_nil]

end Engine

/-- The state after the events, from a start with the table. -/
def history (cfg : Config) (table : Table) (now : Int) (events : List Event) : Engine :=
  Lib.run (step cfg) (.loadActiveConversations table now) events

theorem history_append (cfg : Config) (table : Table) (now : Int) (before after : List Event) :
    history cfg table now (before ++ after) = Lib.run (step cfg) (history cfg table now before) after :=
  Lib.run_append _ _ _ _

end Occp.BrainFlow
