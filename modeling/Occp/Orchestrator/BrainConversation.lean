import Occp.Orchestrator.Models
import Occp.Text

/-!
# A conversation with the Brain (`orchestrator/brain_flow.py`)

What a conversation holds and what each of its phases makes of a message. The router is a
function from texts to decisions. Times are in microseconds.
-/

namespace Occp.BrainFlow

inductive FlowPhase where
  | intake
  | understand
  | plan
  | confirm
  | dispatch
  | monitor
  | deliver
  | completed
  | cancelled
  deriving DecidableEq

namespace FlowPhase

def value : FlowPhase → String
  | intake => "intake"
  | understand => "understand"
  | plan => "plan"
  | confirm => "confirm"
  | dispatch => "dispatch"
  | monitor => "monitor"
  | deliver => "deliver"
  | completed => "completed"
  | cancelled => "cancelled"

/-- `FlowPhase(text)`. -/
def parse? (text : String) : Option FlowPhase :=
  [intake, understand, plan, confirm, dispatch, monitor, deliver, completed, cancelled].find? (·.value = text)

/-- The phases that a plan comes to once it was approved, and those that end a conversation. -/
def settled : FlowPhase → Bool
  | intake | understand | plan | confirm => false
  | dispatch | monitor | deliver | completed | cancelled => true

end FlowPhase

structure RouteDecision where
  primaryAgent : String
  supportAgents : List String
  riskLevel : String
  requiresApproval : Bool
  estimatedDuration : String
  confidence : Rat
  matchedWorkflow : Option String := none

structure PlanStep where
  agent : String
  description : String
  type : String

structure Plan where
  primaryAgent : String
  supportAgents : List String
  riskLevel : String
  estimatedDuration : String
  steps : List PlanStep
  confidence : Rat
  matchedWorkflow : Option String

structure BrainConversation where
  userId : String
  phase : FlowPhase := .intake
  originalMessage : String := ""
  clarifyingQuestions : List String := []
  clarifyingAnswers : List String := []
  executionPlan : Option Plan := none
  planApproved : Bool := false
  dispatchedTasks : List String := []
  results : List (Dict Value) := []
  feedbackScore : Option Nat := none
  updatedAt : Int

def conversationExpirySeconds : Int := 1800

def maxConversationsPerUser : Nat := 10

/-- What became of one step of a plan. -/
structure StepResult where
  taskId : String
  agent : String
  success : Bool
  output : String

inductive Metadata where
  | empty
  | route (decision : RouteDecision)
  | plan (plan : Plan)
  | tasks (taskIds : List String)
  | outcome (taskIds : List String) (results : List StepResult) (succeeded total : Nat)
  | progress (completed total : Nat)
  | feedback (score : Nat)
  | results (results : List (Dict Value))

structure Reply where
  text : String
  phase : String
  actions : List String
  metadata : Metadata := .empty
  conversationId : Option String := none

/-- How a handler comes to its first `await`, or to its end. -/
inductive Handled where
  | reply (reply : Reply)
  | savingApproval (reply : Reply)
  | updatingApproval

/-- `message.lower().strip()`. -/
def normalized (message : String) : List Char := Text.strip (Text.lower message.toList)

def mentions (message : List Char) (keywords : List String) : Bool :=
  keywords.any fun k => isSubstring k.toList message

/-- `words & keywords or normalized in keywords`. -/
def saysOneOf (message : List Char) (keywords : List String) : Bool :=
  (Text.split message).any (fun word => keywords.contains (String.ofList word)) ||
    keywords.contains (String.ofList message)

def approveKeywords : List String :=
  ["igen", "ok", "oke", "go", "rajta", "inditsd", "csinald", "mehet", "jo", "yes", "start", "approve", "rendben",
    "jovahagyom", "proceed"]

def cancelKeywords : List String := ["nem", "megsem", "cancel", "stop", "hagyd", "ne", "megse"]

def modifyKeywords : List String := ["modosit", "valtoztat", "mas", "inkabb", "cserel"]

def skipKeywords : List String := ["ugorjuk", "skip", "hagyd", "mindegy", "ugorjuk at"]

def statusKeywords : List String := ["statusz", "status", "hol tart", "mi a helyzet", "progress", "hogyan all"]

def stopKeywords : List String := ["leallitas", "leallitsd", "stop", "cancel", "megse"]

def approves (message : String) : Bool := saysOneOf (normalized message) approveKeywords

def stops (message : String) : Bool := mentions (normalized message) stopKeywords

def brain : String := "🧠 Brian the Brain\n\n"

/-- The double that `0.6` is. -/
def clarificationThreshold : Rat := 5404319552844595 / 9007199254740992

def needsClarification (message : String) (route : RouteDecision) : Bool :=
  if (Text.split message.toList).length < 5 then false
  else route.confidence < clarificationThreshold || ["high", "critical"].contains route.riskLevel

def generateClarifyingQuestions (route : RouteDecision) : List String :=
  let risk := if ["high", "critical"].contains route.riskLevel then ["Ez production kornyezetet erint?"] else []
  let area :=
    if route.confidence < clarificationThreshold then
      ["Jol ertem, hogy a fo feladat: " ++ route.primaryAgent ++ " teruletre vonatkozik?"]
    else []
  let support := if 2 < route.supportAgents.length then ["Melyik reszfeladatot priorizaljam?"] else []
  match risk ++ area ++ support with
  | [] => ["Van-e hatarido vagy prioritas?"]
  | questions => questions

def breakDownSteps (route : RouteDecision) : List PlanStep :=
  ⟨route.primaryAgent, route.primaryAgent ++ ": fo feladat vegrehajtasa", "execute"⟩ ::
    route.supportAgents.map (fun agent => ⟨agent, agent ++ ": tamogato feladat", "support"⟩) ++
    [⟨"brain", "Brian: minoseg-ellenorzes es osszesites", "quality"⟩]

/-- `enumerate(lines)`, counted from one. -/
def numbered (lines : List String) : List String := lines.zipIdx.map fun l => toString (l.2 + 1) ++ ". " ++ l.1

def riskDisplay (riskLevel : String) : String :=
  match riskLevel with
  | "low" => "✅"
  | "medium" => "⚠️"
  | "high" => "🚨"
  | "critical" => "🛑"
  | _ => "❓"

def agents (separator primary : String) (support : List String) : String :=
  if support.isEmpty then primary else primary ++ separator ++ ", ".intercalate support

namespace BrainConversation

def isExpired (conv : BrainConversation) (now : Int) : Bool :=
  conversationExpirySeconds * 1000000 < now - conv.updatedAt

def isTerminal (conv : BrainConversation) : Bool :=
  conv.phase = .completed || conv.phase = .cancelled

def touch (conv : BrainConversation) (now : Int) : BrainConversation := { conv with updatedAt := now }

/-- How many of the results say that their task was completed. -/
def completed (conv : BrainConversation) : Nat :=
  conv.results.countP fun r =>
    match r.get? "status" with
    | some (.str s) => s = "completed"
    | _ => false

/-- A task is done: the entries of its result come after, and may replace, the two of its own. -/
def record (conv : BrainConversation) (taskId : String) (result : Dict Value) : BrainConversation :=
  let entries : Dict Value := [("task_id", .str taskId), ("status", .str "completed")]
  { conv with results := conv.results ++ [entries.setAll result] }

/-! ## What the phases do -/

/-- `_create_plan`: the text is put together after the approval was saved, from the plan alone. -/
def createPlan (conv : BrainConversation) (route : RouteDecision) : BrainConversation × Handled :=
  let steps := breakDownSteps route
  let plan : Plan :=
    { primaryAgent := route.primaryAgent
      supportAgents := route.supportAgents
      riskLevel := route.riskLevel
      estimatedDuration := route.estimatedDuration
      steps
      confidence := route.confidence
      matchedWorkflow := route.matchedWorkflow }
  let reply : Reply :=
    { text := brain ++ "📋 **Terv kesz!**\n\n🤖 Agentek: " ++
        agents " + " ("**" ++ route.primaryAgent ++ "**") route.supportAgents ++
        "\n⚡ Kockazat: " ++ riskDisplay route.riskLevel ++ " " ++ route.riskLevel ++
        "\n⏱ Becsult ido: " ++ route.estimatedDuration ++
        "\n\n📝 Lepesek:\n" ++ "\n".intercalate ((numbered (steps.map (·.description))).map ("  " ++ ·)) ++
        "\n\nIndithatom?"
      phase := "confirm"
      actions := ["igen", "modositsd", "megsem"]
      metadata := .plan plan }
  let conv := { conv with executionPlan := some plan, phase := .confirm }
  if ["medium", "high", "critical"].contains route.riskLevel then (conv, .savingApproval reply)
  else (conv, .reply reply)

variable (route : String → RouteDecision)

def handleIntake (conv : BrainConversation) (message : String) : BrainConversation × Handled :=
  let conv := { conv with originalMessage := message }
  let decision := route message
  if needsClarification message decision then
    let questions := generateClarifyingQuestions decision
    ({ conv with phase := .understand, clarifyingQuestions := questions },
      .reply
        { text := brain ++ "Ertem a feladatot! Mielott nekiallok, par kerdes:\n\n" ++ "\n".intercalate (numbered questions)
          phase := "understand"
          actions := ["valaszolj", "ugorjuk at"]
          metadata := .route decision })
  else conv.createPlan decision

def handleUnderstand (conv : BrainConversation) (message : String) : BrainConversation × Handled :=
  if mentions (normalized message) skipKeywords then conv.createPlan (route conv.originalMessage)
  else
    let conv := { conv with clarifyingAnswers := conv.clarifyingAnswers ++ [message] }
    match conv.clarifyingQuestions[conv.clarifyingAnswers.length]? with
    | none => conv.createPlan (route (conv.originalMessage ++ " " ++ " ".intercalate conv.clarifyingAnswers))
    | some question =>
      (conv, .reply { text := brain ++ "Koszi! Kovetkezo kerdes:\n\n" ++ question, phase := "understand", actions := ["valaszolj"] })

def handleConfirm (conv : BrainConversation) (message : String) : BrainConversation × Handled :=
  if approves message then ({ conv with planApproved := true, phase := .dispatch }, .updatingApproval)
  else if saysOneOf (normalized message) cancelKeywords then
    ({ conv with phase := .cancelled },
      .reply { text := brain ++ "❌ Rendben, leallitva. Szolj ha mast szeretnel!", phase := "cancelled", actions := [] })
  else if mentions (normalized message) modifyKeywords then
    (conv,
      .reply
        { text := brain ++ "Mit valtoztassak a tervben? (agent, lepesek, prioritas)"
          phase := "confirm"
          actions := ["valaszolj"] })
  else conv.createPlan (route (conv.originalMessage ++ " " ++ message))

/-- No result for a message that starts a new conversation. -/
def handleMonitor (conv : BrainConversation) (message : String) : BrainConversation × Option Handled :=
  if stops message then
    ({ conv with phase := .cancelled },
      some (.reply
        { text := brain ++ "⏹ Leallitva. A mar elkeszult reszeket megorzom.", phase := "cancelled", actions := [] }))
  else if mentions (normalized message) statusKeywords then
    let completed := conv.completed
    let total := conv.dispatchedTasks.length
    (conv,
      some (.reply
        { text := brain ++ "📊 **Statusz:** " ++ toString completed ++ "/" ++ toString total ++
            " kesz\n🔄 Folyamatban: " ++ toString ((total : Int) - completed) ++ "\n"
          phase := "monitor"
          actions := ["statusz", "leallitas"]
          metadata := .progress completed total }))
  else (conv, none)

def handleDispatchPhase (conv : BrainConversation) (message : String) : BrainConversation × Option Handled :=
  { conv with phase := .monitor }.handleMonitor message

/-- The score that a message gives. -/
def rating? (message : String) : Option Nat :=
  (Text.decimal? (Text.strip message.toList)).filter fun score => 1 ≤ score && score ≤ 5

def handleDeliver (conv : BrainConversation) (message : String) : BrainConversation × Option Handled :=
  match rating? message with
  | some score =>
    ({ conv with feedbackScore := some score, phase := .completed },
      some (.reply
        { text := brain ++ String.join (List.replicate score "⭐") ++ " Koszi a visszajelzest! Szolj ha kell valami mas."
          phase := "completed"
          actions := []
          metadata := .feedback score }))
  | none => (conv, none)

/-- `_phase_handlers().get(conv.phase)`, applied to the message. -/
def handle (conv : BrainConversation) (message : String) : Option (BrainConversation × Option Handled) :=
  match conv.phase with
  | .intake => some ((conv.handleIntake route message).map id some)
  | .understand => some ((conv.handleUnderstand route message).map id some)
  | .confirm => some ((conv.handleConfirm route message).map id some)
  | .dispatch => some (conv.handleDispatchPhase message)
  | .monitor => some (conv.handleMonitor message)
  | .deliver => some (conv.handleDeliver message)
  | .plan | .completed | .cancelled => none

end BrainConversation

/-! ## What a handler can do -/

namespace BrainConversation

variable {route : String → RouteDecision} {conv conv' : BrainConversation} {message : String}
  {handled : Option Handled}

/-- What becomes of a conversation that a message is handled for. -/
inductive Handles (conv : BrainConversation) (message : String) : BrainConversation → Option Handled → Prop where
  | planned {conv' : BrainConversation} {handled : Handled} (hphase : conv.phase.settled = false)
    (hphase' : conv'.phase.settled = false) (hhandled : handled ≠ .updatingApproval) :
    Handles conv message conv' (some handled)
  | approved (hphase : conv.phase = .confirm) (hmessage : approves message = true) :
    Handles conv message { conv with planApproved := true, phase := .dispatch } (some .updatingApproval)
  | rejected (hphase : conv.phase = .confirm) (reply : Reply) :
    Handles conv message { conv with phase := .cancelled } (some (.reply reply))
  | stopped (hphase : conv.phase = .dispatch ∨ conv.phase = .monitor) (hmessage : stops message = true)
    (reply : Reply) : Handles conv message { conv with phase := .cancelled } (some (.reply reply))
  | watched (hphase : conv.phase = .dispatch ∨ conv.phase = .monitor) (reply : Reply) :
    Handles conv message { conv with phase := .monitor } (some (.reply reply))
  | left (hphase : conv.phase = .dispatch ∨ conv.phase = .monitor) :
    Handles conv message { conv with phase := .monitor } none
  | rated (hphase : conv.phase = .deliver) (score : Nat) (reply : Reply) :
    Handles conv message { conv with feedbackScore := some score, phase := .completed } (some (.reply reply))
  | followed (hphase : conv.phase = .deliver) : Handles conv message conv none

theorem createPlan_phase (conv : BrainConversation) (d : RouteDecision) : (conv.createPlan d).1.phase = .confirm := by
  unfold createPlan
  dsimp only
  split <;> rfl

theorem createPlan_handled (conv : BrainConversation) (d : RouteDecision) :
    (conv.createPlan d).2 ≠ .updatingApproval := by
  unfold createPlan
  dsimp only
  split <;> simp

theorem createPlan_userId (conv : BrainConversation) (d : RouteDecision) :
    (conv.createPlan d).1.userId = conv.userId := by
  unfold createPlan
  dsimp only
  split <;> rfl

theorem Handles.of_createPlan (hphase : conv.phase.settled = false) (planning : BrainConversation) (d : RouteDecision) :
    Handles conv message (planning.createPlan d).1 (some (planning.createPlan d).2) :=
  .planned hphase (by rw [createPlan_phase]; rfl) (createPlan_handled planning d)

theorem handleIntake_handled (conv : BrainConversation) (message : String) :
    (conv.handleIntake route message).2 ≠ .updatingApproval := by
  unfold handleIntake
  dsimp only
  split
  · simp
  · exact createPlan_handled _ _

theorem handleIntake_phase (conv : BrainConversation) (message : String) :
    (conv.handleIntake route message).1.phase.settled = false := by
  unfold handleIntake
  dsimp only
  split
  · rfl
  · rw [createPlan_phase]
    rfl

theorem handles_intake (hphase : conv.phase.settled = false) :
    Handles conv message (conv.handleIntake route message).1 (some (conv.handleIntake route message).2) := by
  unfold handleIntake
  dsimp only
  split
  · exact .planned hphase rfl (by simp)
  · exact .of_createPlan hphase _ _

theorem handles_understand (hphase : conv.phase = .understand) :
    Handles conv message (conv.handleUnderstand route message).1 (some (conv.handleUnderstand route message).2) := by
  have hsettled : conv.phase.settled = false := by rw [hphase]; rfl
  unfold handleUnderstand
  dsimp only
  split
  · exact .of_createPlan hsettled _ _
  · split
    · exact .of_createPlan hsettled _ _
    · exact .planned hsettled hsettled (by simp)

theorem handles_confirm (hphase : conv.phase = .confirm) :
    Handles conv message (conv.handleConfirm route message).1 (some (conv.handleConfirm route message).2) := by
  have hsettled : conv.phase.settled = false := by rw [hphase]; rfl
  unfold handleConfirm
  split
  · next hmessage => exact .approved hphase hmessage
  · split
    · exact .rejected hphase _
    · split
      · exact .planned hsettled hsettled (by simp)
      · exact .of_createPlan hsettled _ _

theorem handles_monitor {watched : BrainConversation} (hphase : conv.phase = .dispatch ∨ conv.phase = .monitor)
    (hwatched : watched = { conv with phase := .monitor }) :
    Handles conv message (watched.handleMonitor message).1 (watched.handleMonitor message).2 := by
  subst hwatched
  unfold handleMonitor
  split
  · next hmessage => exact .stopped hphase hmessage _
  · split
    · exact .watched hphase _
    · exact .left hphase

theorem handles_deliver (hphase : conv.phase = .deliver) :
    Handles conv message (conv.handleDeliver message).1 (conv.handleDeliver message).2 := by
  unfold handleDeliver
  split
  · exact .rated hphase _ _
  · exact .followed hphase

theorem handle_spec (h : conv.handle route message = some (conv', handled)) : Handles conv message conv' handled := by
  unfold handle at h
  split at h
  case h_1 hphase =>
    obtain ⟨rfl, rfl⟩ := by simpa [Prod.ext_iff] using h
    exact handles_intake (by rw [hphase]; rfl)
  case h_2 hphase =>
    obtain ⟨rfl, rfl⟩ := by simpa [Prod.ext_iff] using h
    exact handles_understand hphase
  case h_3 hphase =>
    obtain ⟨rfl, rfl⟩ := by simpa [Prod.ext_iff] using h
    exact handles_confirm hphase
  case h_4 hphase =>
    obtain ⟨rfl, rfl⟩ := by simpa [Prod.ext_iff] using h
    exact handles_monitor (.inl hphase) rfl
  case h_5 hphase =>
    obtain ⟨rfl, rfl⟩ := by simpa [Prod.ext_iff] using h
    exact handles_monitor (.inr hphase) (by rw [← hphase])
  case h_6 hphase =>
    obtain ⟨rfl, rfl⟩ := by simpa [Prod.ext_iff] using h
    exact handles_deliver hphase
  all_goals cases h

theorem handle_approved (hphase : conv.phase = .confirm) (hmessage : approves message = true) :
    conv.handle route message =
      some ({ conv with planApproved := true, phase := .dispatch }, some .updatingApproval) := by
  rw [handle, hphase]
  simp [handleConfirm, hmessage]

theorem handle_cancelled (hphase : conv.phase = .cancelled) : conv.handle route message = none := by
  rw [handle, hphase]

/-- No phase after the approval leads back. -/
theorem Handles.settled (h : Handles conv message conv' handled) (hphase : conv.phase.settled = true) :
    conv'.phase.settled = true := by
  cases h with
  | planned hnot => rw [hphase] at hnot; cases hnot
  | followed => exact hphase
  | approved | rejected | stopped | watched | left | rated => rfl

end BrainConversation

end Occp.BrainFlow
