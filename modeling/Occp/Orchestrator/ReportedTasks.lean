import Mathlib.Data.List.Nodup
import Mathlib.Data.List.Perm.Subperm
import Occp.Orchestrator.DispatchOnce

/-!
# Delivery and what was reported

`complete_task` counts the results that say that their task was completed, and takes the
conversation to `DELIVER` once there are as many as tasks were dispatched. Whose results they
are it does not ask.
-/

namespace Occp.BrainFlow

/-! ## What messages leave as it is -/

/-- What `f` reads is set by no handler. -/
structure Unhandled {α : Type} (f : BrainConversation → α) : Prop where
  touch : ∀ (conv : BrainConversation) (now : Int), f (conv.touch now) = f conv
  handle : ∀ {route : String → RouteDecision} {conv conv' : BrainConversation} {message : String}
    {handled : Option Handled}, conv.handle route message = some (conv', handled) → f conv' = f conv

/-- What `f` reads of the conversation stays, and of one that is new it is what a new one has. -/
structure Carries {α : Type} (f : BrainConversation → α) (c : String) (s s' : Engine) : Prop where
  old : ∀ conv, s.objects c = some conv → ∃ conv', s'.objects c = some conv' ∧ f conv' = f conv
  new : s.objects c = none → ∀ conv', s'.objects c = some conv' →
    ∃ user now, f conv' = f { userId := user, updatedAt := now }

section

variable {α : Type} {f : BrainConversation → α} {c c' : String} {s s' s'' : Engine} {id : CallId} {cfg : Config}
  {conv conv' : BrainConversation} {message : String} {w : World} {stage : Stage}

theorem Carries.of_eq (h : s'.objects c = s.objects c) : Carries f c s s' where
  old conv hconv := ⟨conv, h.trans hconv, rfl⟩
  new hnone conv' hconv' := by
    rw [h, hnone] at hconv'
    cases hconv'

theorem Carries.trans (h : Carries f c s s') (h' : Carries f c s' s'') : Carries f c s s'' where
  old conv hconv := by
    obtain ⟨conv', hconv', hf⟩ := h.old conv hconv
    obtain ⟨conv'', hconv'', hf'⟩ := h'.old conv' hconv'
    exact ⟨conv'', hconv'', hf'.trans hf⟩
  new hnone conv'' hconv'' := by
    cases hconv' : s'.objects c with
    | none => exact h'.new hconv' conv'' hconv''
    | some conv' =>
      obtain ⟨conv, hconv, hf⟩ := h'.old conv' hconv'
      rw [hconv''] at hconv
      cases hconv
      obtain ⟨user, now, hnew⟩ := h.new hnone conv' hconv'
      exact ⟨user, now, hf.trans hnew⟩

theorem carries_put (hconv : s.objects c' = some conv) (h : c' = c → f conv' = f conv) :
    Carries f c s (s.put c' conv') := by
  by_cases hc : c = c'
  · subst hc
    refine ⟨fun old hold => ?_, fun hnone => ?_⟩
    · rw [hconv] at hold
      cases hold
      exact ⟨conv', s.objects_put_self c conv', h rfl⟩
    · rw [hconv] at hnone
      cases hnone
  · exact .of_eq (by simp [hc])

theorem carries_create (user : String) (now : Int) (hfresh : s.objects c' = none) :
    Carries f c s (s.createConversation user c' now) := by
  by_cases hc : c = c'
  · subst hc
    refine ⟨fun old hold => ?_, fun _ conv' hconv' => ?_⟩
    · rw [hfresh] at hold
      cases hold
    · rw [Engine.objects_createConversation, if_pos rfl] at hconv'
      cases hconv'
      exact ⟨user, now, rfl⟩
  · exact .of_eq (by simp [hc])

theorem carries_start (hf : Unhandled f) (cfg : Config) (user message : String) (now : Int)
    (hfresh : s.objects c' = none) : Carries f c s (s.startConversation cfg user c' message now).1 := by
  have hintake : BrainConversation.handle cfg.route { userId := user, updatedAt := now } message =
      some ((BrainConversation.handleIntake cfg.route { userId := user, updatedAt := now } message).map id some) := rfl
  have hobject : (s.createConversation user c' now).objects c' = some { userId := user, updatedAt := now } := by
    rw [Engine.objects_createConversation, if_pos rfl]
  exact (carries_create user now hfresh).trans (carries_put hobject fun _ => hf.handle hintake)

theorem carries_getOrCreate (user : String) (conversationId : Option String) (w : World)
    (hfresh : s.objects (w.uuid 0) = none) : Carries f c s (s.getOrCreateConversation user conversationId w).1 := by
  unfold Engine.getOrCreateConversation Engine.getActiveConversations
  split
  · exact .of_eq rfl
  · dsimp only
    split
    · exact .of_eq rfl
    · have hexpire : Carries f c s (s.expireConversations user w.now) := .of_eq rfl
      exact hexpire.trans (carries_create user w.now hfresh)

theorem carries_receive (hf : Unhandled f) {conversationId : Option String} (hfresh : s.objects (w.uuid 0) = none) :
    Carries f c s (s.receive id message conversationId w) := by
  have hexpire : Carries f c s (s.expireConversations id.user w.now) := .of_eq rfl
  have hget := hexpire.trans (carries_getOrCreate id.user conversationId w hfresh)
  unfold Engine.receive
  dsimp only
  split
  · exact hget
  · next conv hconv =>
    have hput : Carries f c _ (Engine.put _ _ (conv.touch w.now)) := carries_put hconv fun _ => hf.touch conv w.now
    exact hget.trans (hput.trans (.of_eq rfl))

theorem carries_route (hf : Unhandled f) (hconv : s.objects c' = some conv) (hfresh : s.objects (w.uuid 0) = none) :
    Carries f c s (s.routeMessage cfg id c' conv message w) := by
  have hnote : Carries f c s (s.note (.routed id c' conv.phase message)) := .of_eq rfl
  have hother : w.uuid 0 ≠ c' := by
    rintro heq
    rw [heq, hconv] at hfresh
    cases hfresh
  unfold Engine.routeMessage
  dsimp only
  split
  · next conv' handled hhandle =>
    exact (hnote.trans (carries_put hconv fun _ => hf.handle hhandle)).trans (.of_eq rfl)
  · next conv' hhandle =>
    refine (hnote.trans (carries_put hconv fun _ => hf.handle hhandle)).trans
      ((carries_start hf cfg conv'.userId message w.now ?_).trans (.of_eq rfl))
    simpa [hother] using hfresh
  · exact hnote.trans ((carries_start (s := s.note _) hf cfg id.user message w.now hfresh).trans (.of_eq rfl))

/-- A call at work on another conversation. -/
theorem carries_resume_of_ne (hf : Unhandled f) (hconv : s.objects c' = some conv) (hfresh : s.objects (w.uuid 0) = none)
    (hne : c' ≠ c) : Carries f c s (s.resume cfg id c' conv w stage) := by
  have hput (s : Engine) (conv : BrainConversation) : Carries f c s (s.put c' conv) := .of_eq (by simp [hne.symm])
  have hnext (d : Dispatch) : Carries f c s (s.nextStep id c' conv d w) := by
    unfold Engine.nextStep
    split
    · exact .of_eq rfl
    · exact (hput s _).trans (.of_eq rfl)
  cases stage with
  | savingApproval | persistingAgain | returned | addingTask => exact .of_eq rfl
  | gatheringContext => exact hnext _
  | runningTask => exact hnext _
  | persisting message => exact carries_route hf hconv hfresh
  | updatingApproval =>
    rw [Engine.resume, Engine.dispatchTasks]
    split
    · exact (hput s _).trans (.of_eq rfl)
    · dsimp only
      split
      · exact .of_eq rfl
      · exact .of_eq (by simp [hne.symm])

end

/-! ## Tasks and results -/

namespace BrainConversation

/-- The tasks that were dispatched, and the results that came in. -/
def work (conv : BrainConversation) : List String × List (Dict Value) := (conv.dispatchedTasks, conv.results)

variable {route : String → RouteDecision} {conv conv' : BrainConversation} {message : String} {handled : Option Handled}

theorem createPlan_work (conv : BrainConversation) (d : RouteDecision) : (conv.createPlan d).1.work = conv.work := by
  unfold createPlan
  dsimp only
  split <;> rfl

theorem handleIntake_work (conv : BrainConversation) (message : String) :
    (conv.handleIntake route message).1.work = conv.work := by
  unfold handleIntake
  dsimp only
  split
  · rfl
  · exact createPlan_work _ _

theorem handleUnderstand_work (conv : BrainConversation) (message : String) :
    (conv.handleUnderstand route message).1.work = conv.work := by
  unfold handleUnderstand
  dsimp only
  split
  · exact createPlan_work _ _
  · split
    · exact createPlan_work _ _
    · rfl

theorem handleConfirm_work (conv : BrainConversation) (message : String) :
    (conv.handleConfirm route message).1.work = conv.work := by
  unfold handleConfirm
  repeat' split
  all_goals first | rfl | exact createPlan_work _ _

theorem handleMonitor_work (conv : BrainConversation) (message : String) :
    (conv.handleMonitor message).1.work = conv.work := by
  unfold handleMonitor
  repeat' split
  all_goals rfl

theorem handleDeliver_work (conv : BrainConversation) (message : String) :
    (conv.handleDeliver message).1.work = conv.work := by
  unfold handleDeliver
  split <;> rfl

theorem handle_work (h : conv.handle route message = some (conv', handled)) : conv'.work = conv.work := by
  unfold handle at h
  split at h
  case h_1 =>
    obtain ⟨rfl, -⟩ := by simpa [Prod.ext_iff] using h
    exact handleIntake_work _ _
  case h_2 =>
    obtain ⟨rfl, -⟩ := by simpa [Prod.ext_iff] using h
    exact handleUnderstand_work _ _
  case h_3 =>
    obtain ⟨rfl, -⟩ := by simpa [Prod.ext_iff] using h
    exact handleConfirm_work _ _
  case h_4 =>
    obtain ⟨rfl, -⟩ := by simpa [Prod.ext_iff] using h
    exact handleMonitor_work { conv with phase := .monitor } _
  case h_5 =>
    obtain ⟨rfl, -⟩ := by simpa [Prod.ext_iff] using h
    exact handleMonitor_work _ _
  case h_6 =>
    obtain ⟨rfl, -⟩ := by simpa [Prod.ext_iff] using h
    exact handleDeliver_work _ _
  all_goals cases h

theorem work_unhandled : Unhandled work where
  touch _ _ := rfl
  handle := handle_work

/-- A result says that its task was completed. -/
def saysCompleted (r : Dict Value) : Bool :=
  match r.get? "status" with
  | some (.str s) => s = "completed"
  | _ => false

/-- The entry that `complete_task` makes of a result. -/
def entry (taskId : String) (result : Dict Value) : Dict Value :=
  Dict.setAll [("task_id", .str taskId), ("status", .str "completed")] result

theorem completed_eq (conv : BrainConversation) : conv.completed = conv.results.countP saysCompleted := rfl

theorem completed_record (conv : BrainConversation) (taskId : String) (result : Dict Value) :
    (conv.record taskId result).completed =
      conv.completed + if saysCompleted (entry taskId result) = true then 1 else 0 := by
  rw [completed_eq, completed_eq]
  exact (List.countP_append ..).trans (congrArg _ (List.countP_singleton ..))

theorem completed_of_work (h : conv'.work = conv.work) : conv'.completed = conv.completed := by
  have hresults : conv'.results = conv.results := congrArg Prod.snd h
  rw [completed_eq, completed_eq, hresults]

end BrainConversation

/-! ## The tally -/

/-- What is reported of a conversation is counted: the results that count are those of the tasks
reported, no task twice and none that was not dispatched. Once every task is, more may come. -/
def BrainConversation.Counted (conv : BrainConversation) (reports : List String) : Prop :=
  (conv.dispatchedTasks ≠ [] ∧ conv.dispatchedTasks ⊆ reports) ∨
    (conv.completed = reports.length ∧ reports.Nodup ∧ reports ⊆ conv.dispatchedTasks)

theorem BrainConversation.Counted.of_work {conv conv' : BrainConversation} {reports : List String}
    (h : conv.Counted reports) (hwork : conv'.work = conv.work) : conv'.Counted reports := by
  have htasks : conv'.dispatchedTasks = conv.dispatchedTasks := congrArg Prod.fst hwork
  rw [Counted, htasks, completed_of_work hwork]
  exact h

/-- As many results that count as tasks leave no task out. -/
theorem BrainConversation.Counted.all {conv : BrainConversation} {reports : List String} (h : conv.Counted reports)
    (hmany : conv.dispatchedTasks.length ≤ conv.completed) : conv.dispatchedTasks ⊆ reports := by
  rcases h with ⟨-, hall⟩ | ⟨hcount, hnodup, hsub⟩
  · exact hall
  · rw [hcount] at hmany
    exact ((hnodup.subperm hsub).perm_of_length_le hmany).symm.subset

/-- The tasks of a conversation are set once, by its dispatch, and its reports are counted. -/
structure Tallied (s : Engine) (c : String) (reports : List String) : Prop where
  unmade : s.objects c = none → reports = []
  dispatched : ∀ conv, s.objects c = some conv → conv.dispatchedTasks ≠ [] → s.Settled c ∧ s.NoneDispatches c
  counted : ∀ conv, s.objects c = some conv → conv.Counted reports

section

variable {c c' : String} {s s' : Engine} {id : CallId} {reports : List String}

theorem Tallied.of_quiet (h : Tallied s c reports) (hquiet : Quiet c s s')
    (hwork : Carries BrainConversation.work c s s') : Tallied s' c reports where
  unmade hnone := by
    refine h.unmade ?_
    by_contra hsome
    obtain ⟨conv, hconv⟩ := Option.ne_none_iff_exists'.mp hsome
    obtain ⟨conv', hconv', -⟩ := hwork.old conv hconv
    rw [hnone] at hconv'
    cases hconv'
  dispatched conv' hconv' htasks := by
    cases hconv : s.objects c with
    | none =>
      obtain ⟨user, now, hnew⟩ := hwork.new hconv conv' hconv'
      exact absurd (congrArg Prod.fst hnew) htasks
    | some conv =>
      obtain ⟨conv'', hconv'', hsame⟩ := hwork.old conv hconv
      rw [hconv'] at hconv''
      cases hconv''
      have hold : conv.dispatchedTasks = conv'.dispatchedTasks := (congrArg Prod.fst hsame).symm
      obtain ⟨hsettled, hnone⟩ := h.dispatched conv hconv (hold ▸ htasks)
      exact ⟨hquiet.settled hsettled, hquiet.none_dispatches hnone⟩
  counted conv' hconv' := by
    cases hconv : s.objects c with
    | none =>
      obtain ⟨user, now, hnew⟩ := hwork.new hconv conv' hconv'
      rw [h.unmade hconv]
      exact BrainConversation.Counted.of_work (.inr ⟨rfl, List.nodup_nil, List.nil_subset _⟩) hnew
    | some conv =>
      obtain ⟨conv'', hconv'', hsame⟩ := hwork.old conv hconv
      rw [hconv'] at hconv''
      cases hconv''
      exact (h.counted conv hconv).of_work hsame

variable {cfg : Config} {conv conv' : BrainConversation} {w : World} {stage : Stage} {d : Dispatch}

/-- Before its dispatch is over a conversation has no tasks. -/
theorem Tallied.no_tasks (h : Tallied s c reports) (hconv : s.objects c = some conv)
    (hnot : ¬ (s.Settled c ∧ s.NoneDispatches c)) : conv.dispatchedTasks = [] := by
  by_contra htasks
  exact hnot (h.dispatched conv hconv htasks)

theorem Tallied.no_tasks_of_call (h : Tallied s c reports) (hconv : s.objects c = some conv)
    (hcall : s.call? id = some ⟨c, stage⟩) (hstage : stage.dispatches = true) : conv.dispatchedTasks = [] := by
  refine h.no_tasks hconv fun hover => ?_
  have hnot := hover.2 id stage hcall
  rw [hstage] at hnot
  cases hnot

theorem Tallied.of_no_tasks (h : Tallied s c reports) (hconv : s.objects c = some conv)
    (htasks : conv.dispatchedTasks = []) (hconv' : s'.objects c = some conv') (hwork : conv'.work = conv.work) :
    Tallied s' c reports where
  unmade hnone := by
    rw [hconv'] at hnone
    cases hnone
  dispatched old hold hsome := by
    rw [hconv'] at hold
    cases hold
    exact absurd ((congrArg Prod.fst hwork).trans htasks) hsome
  counted old hold := by
    rw [hconv'] at hold
    cases hold
    exact (h.counted conv hconv).of_work hwork

/-- The dispatch sets the tasks when it is over. Nothing that counts was reported before. -/
theorem Tallied.finish (h : Tallied s c reports) (hconv : s.objects c = some conv)
    (htasks : conv.dispatchedTasks = []) (hconv' : s'.objects c = some conv') (hresults : conv'.results = conv.results)
    (hsettled : s'.Settled c) (hnone : s'.NoneDispatches c) : Tallied s' c reports where
  unmade hmissing := by
    rw [hconv'] at hmissing
    cases hmissing
  dispatched _ _ _ := ⟨hsettled, hnone⟩
  counted old hold := by
    rw [hconv'] at hold
    cases hold
    rcases h.counted conv hconv with ⟨hsome, -⟩ | ⟨hcount, hnodup, hsub⟩
    · exact absurd htasks hsome
    · rw [htasks] at hsub
      obtain rfl := List.subset_nil.mp hsub
      refine .inr ⟨?_, List.nodup_nil, List.nil_subset _⟩
      rw [BrainConversation.completed_eq, hresults]
      exact hcount

theorem tallied_next (h : Tallied s c reports) (hconv : s.objects c = some conv) (htasks : conv.dispatchedTasks = [])
    (honly : s.OnlyBy id c) : Tallied (s.nextStep id c conv d w) c reports := by
  unfold Engine.nextStep
  split
  · exact h.of_no_tasks hconv htasks hconv rfl
  · exact h.finish hconv htasks (s.objects_put_self c _) rfl ⟨_, s.objects_put_self c _, rfl⟩
      (none_dispatches_await honly rfl)

theorem tallied_dispatch (h : Tallied s c reports) (hconv : s.objects c = some conv)
    (htasks : conv.dispatchedTasks = []) (honly : s.OnlyBy id c) :
    Tallied (s.dispatchTasks cfg id c conv w) c reports := by
  unfold Engine.dispatchTasks
  split
  · exact h.of_no_tasks hconv htasks (s.objects_put_self c _) rfl
  · next plan _ =>
    dsimp only
    split
    · exact h.of_no_tasks hconv htasks hconv rfl
    · refine h.finish hconv htasks (Engine.objects_put_self ..) rfl ⟨_, Engine.objects_put_self .., rfl⟩
        (none_dispatches_await ?_ rfl)
      exact honly

theorem tallied_route {message : String} (h : Tallied s c reports) (hcall : s.call? id = some ⟨c, .persisting message⟩)
    (hconv : s.objects c = some conv) (hfresh : s.objects (w.uuid 0) = none) :
    Tallied (s.routeMessage cfg id c conv message w) c reports := by
  by_cases happrove : conv.phase = .confirm ∧ approves message = true
  · obtain ⟨hphase, hmessage⟩ := happrove
    rw [Engine.routeMessage, BrainConversation.handle_approved hphase hmessage]
    refine h.of_no_tasks hconv (h.no_tasks hconv ?_) (s.objects_put_self c _) rfl
    rintro ⟨⟨old, hold, hsettled⟩, -⟩
    rw [hconv] at hold
    cases hold
    rw [hphase] at hsettled
    cases hsettled
  · exact h.of_quiet (quiet_route hcall hconv hfresh fun _ => happrove)
      (carries_route BrainConversation.work_unhandled hconv hfresh)

theorem tallied_resume (h : Tallied s c reports) (hp : Progress s c) (hcall : s.call? id = some ⟨c', stage⟩)
    (hconv : s.objects c' = some conv) (hfresh : s.objects (w.uuid 0) = none) :
    Tallied (s.resume cfg id c' conv w stage) c reports := by
  by_cases hne : c' = c
  · subst hne
    cases stage with
    | persisting message => exact tallied_route h hcall hconv hfresh
    | savingApproval reply | persistingAgain reply =>
      exact h.of_quiet (quiet_await (not_dispatches_of_call hcall fun _ => rfl) fun _ => rfl) (.of_eq rfl)
    | returned reply => exact h
    | addingTask d task => exact h.of_no_tasks hconv (h.no_tasks_of_call hconv hcall rfl) hconv rfl
    | updatingApproval =>
      obtain ⟨-, -, honly, -⟩ := hp.of_updatingApproval hcall
      exact tallied_dispatch h hconv (h.no_tasks_of_call hconv hcall rfl) honly
    | gatheringContext | runningTask =>
      obtain ⟨-, -, -, -, -, honly, -⟩ := hp.of_dispatching hcall rfl (by simp)
      exact tallied_next h hconv (h.no_tasks_of_call hconv hcall rfl) honly
  · exact h.of_quiet (quiet_resume_of_ne hcall hconv hfresh hne)
      (carries_resume_of_ne BrainConversation.work_unhandled hconv hfresh hne)

end

/-! ## Reports -/

open BrainConversation in
/-- A result comes in for a task: one more that counts only if it says so. -/
theorem BrainConversation.Counted.record {conv : BrainConversation} {reports : List String} {taskId : String}
    {result : Dict Value} (h : conv.Counted reports)
    (hfair : conv.dispatchedTasks ⊆ reports ∨
      (saysCompleted (entry taskId result) = true → taskId ∈ conv.dispatchedTasks ∧ taskId ∉ reports))
    (hsome : conv.dispatchedTasks ≠ []) :
    (conv.record taskId result).Counted
      (if saysCompleted (entry taskId result) = true then reports ++ [taskId] else reports) := by
  by_cases hall : conv.dispatchedTasks ⊆ reports
  · refine .inl ⟨hsome, ?_⟩
    split
    · exact List.Subset.trans hall (List.subset_append_left _ _)
    · exact hall
  · rcases h with ⟨-, habsurd⟩ | ⟨hcount, hnodup, hsub⟩
    · exact absurd habsurd hall
    refine .inr ?_
    rw [completed_record]
    split
    · next hsaid =>
      obtain ⟨hmem, hnew⟩ := hfair.resolve_left hall hsaid
      refine ⟨by simp [hcount], List.nodup_append_comm.mpr (List.nodup_cons.mpr ⟨hnew, hnodup⟩), ?_⟩
      exact List.append_subset.mpr ⟨hsub, List.cons_subset.mpr ⟨hmem, List.nil_subset _⟩⟩
    · exact ⟨hcount, hnodup, hsub⟩

/-- The engine, and the tasks that were reported complete, each with its conversation. -/
structure Watched where
  engine : Engine := {}
  reported : List (String × String) := []

namespace Watched

def reportsOf (s : Watched) (c : String) : List String :=
  s.reported.filterMap fun report => if report.1 = c then some report.2 else none

/-- A report on a conversation that the engine does not hold is lost, and one whose result
gives another status does not say that the task is complete. -/
def step (cfg : Config) (s : Watched) (e : Event) : Watched where
  engine := BrainFlow.step cfg s.engine e
  reported :=
    match e with
    | .complete c taskId result _ =>
      if (s.engine.conversation? c).isSome ∧ BrainConversation.saysCompleted (BrainConversation.entry taskId result) then
        s.reported ++ [(c, taskId)]
      else s.reported
    | _ => s.reported

/-- `complete_task` comes after the dispatch, for a task that was dispatched and not yet
reported. Once all are, any may come. -/
def fair (s : Watched) : Event → Bool
  | .complete c taskId result _ =>
    (s.engine.conversation? c).all fun conv =>
      conv.dispatchedTasks ≠ [] &&
        (conv.dispatchedTasks ⊆ s.reportsOf c ||
          (!BrainConversation.saysCompleted (BrainConversation.entry taskId result) ||
            (conv.dispatchedTasks.contains taskId && !(s.reportsOf c).contains taskId)))
  | _ => true

/-- The conversation has dispatched a task at least, and all that it dispatched are reported. -/
def Done (s : Watched) (c : String) : Prop :=
  ∃ conv ∈ s.engine.objects c, conv.dispatchedTasks ≠ [] ∧ ∀ taskId ∈ conv.dispatchedTasks, taskId ∈ s.reportsOf c

/-- Every conversation keeps its tally. -/
structure Sound (s : Watched) : Prop where
  disciplined : Disciplined s.engine
  tallied : ∀ c, Tallied s.engine c (s.reportsOf c)

end Watched

/-- The call takes the conversation to its end: it answers with a delivery, or the phase is
`DELIVER` or `COMPLETED` after it and was another one before. -/
def Engine.Delivers (text : Value → String) (s : Engine) (c taskId : String) (result : Dict Value) (now : Int) : Prop :=
  (s.completeTask text c taskId result now).2.isSome ∨
    ∃ conv' ∈ (s.completeTask text c taskId result now).1.objects c,
      (conv'.phase = .deliver ∨ conv'.phase = .completed) ∧ ∀ conv ∈ s.objects c, conv.phase ≠ conv'.phase

section

variable {text : Value → String} {s : Engine} {c c' taskId : String} {result : Dict Value} {now : Int}
  {conv : BrainConversation}

theorem completeTask_of_ne (hne : c' ≠ c) :
    (s.completeTask text c taskId result now).1.objects c' = s.objects c' := by
  unfold Engine.completeTask
  split
  · rfl
  · dsimp only
    split <;> simp [hne]

/-- The result is entered, and with enough of them the phase is `DELIVER`. -/
theorem completeTask_object (text : Value → String) (taskId : String) (result : Dict Value) (now : Int)
    (hconv : s.conversation? c = some conv) :
    ∃ conv', (s.completeTask text c taskId result now).1.objects c = some conv' ∧
      conv'.work = (conv.record taskId result).work ∧
      ((s.completeTask text c taskId result now).2.isSome = true ∧
          conv.dispatchedTasks.length ≤ (conv.record taskId result).completed ∨
        (s.completeTask text c taskId result now).2 = none ∧ conv'.phase = conv.phase) := by
  unfold Engine.completeTask
  rw [hconv]
  dsimp only
  split
  · next hmany => exact ⟨_, s.objects_put_self c _, rfl, .inl ⟨rfl, hmany⟩⟩
  · exact ⟨_, s.objects_put_self c _, rfl, .inr ⟨rfl, rfl⟩⟩

theorem Engine.Delivers.enough (h : s.Delivers text c taskId result now) :
    ∃ conv, s.conversation? c = some conv ∧ conv.dispatchedTasks.length ≤ (conv.record taskId result).completed := by
  cases hconv : s.conversation? c with
  | none =>
    have hsame : s.completeTask text c taskId result now = (s, none) := by rw [Engine.completeTask, hconv]
    rw [Engine.Delivers, hsame] at h
    rcases h with h | ⟨conv', hconv', -, hnew⟩
    · cases h
    · exact absurd rfl (hnew conv' hconv')
  | some conv =>
    refine ⟨conv, rfl, ?_⟩
    obtain ⟨conv', hconv', -, ⟨-, hmany⟩ | ⟨hreply, hphase⟩⟩ :=
      completeTask_object text taskId result now hconv
    · exact hmany
    · rw [Engine.Delivers, hreply] at h
      rcases h with h | ⟨conv'', hconv'', -, hnew⟩
      · cases h
      · obtain rfl := Option.some.inj (hconv'.symm.trans hconv'')
        exact absurd hphase.symm (hnew conv (Engine.objects_of_conversation? hconv))

end

/-! ## Runs -/

namespace Watched

variable {cfg : Config} {s : Watched} {c taskId : String} {result : Dict Value} {now : Int} {e : Event}

theorem reportsOf_complete (cfg : Config) (s : Watched) (c taskId : String) (result : Dict Value) (now : Int)
    {conv : BrainConversation} (hconv : s.engine.conversation? c = some conv) :
    (s.step cfg (.complete c taskId result now)).reportsOf c =
      if BrainConversation.saysCompleted (BrainConversation.entry taskId result) = true then s.reportsOf c ++ [taskId]
      else s.reportsOf c := by
  simp only [step, hconv, Option.isSome_some, true_and, reportsOf]
  split
  · rw [List.filterMap_append]
    simp
  · rfl

theorem reportsOf_complete_of_ne {c' : String} (hne : c' ≠ c) :
    (s.step cfg (.complete c taskId result now)).reportsOf c' = s.reportsOf c' := by
  simp only [step, reportsOf]
  split
  · rw [List.filterMap_append]
    simp [hne.symm]
  · rfl

theorem Sound.complete (h : s.Sound) (hfair : s.fair (.complete c taskId result now) = true) (c' : String) :
    Tallied (s.step cfg (.complete c taskId result now)).engine c'
      ((s.step cfg (.complete c taskId result now)).reportsOf c') := by
  have hquiet : Quiet c' s.engine (s.engine.completeTask cfg.text c taskId result now).1 :=
    quiet_complete cfg.text taskId result now
  by_cases hne : c' = c
  · subst hne
    cases hconv : s.engine.conversation? c' with
    | none =>
      have hsame : s.step cfg (.complete c' taskId result now) = s := by
        simp [step, BrainFlow.step, Engine.completeTask, hconv]
      rw [hsame]
      exact h.tallied c'
    | some conv =>
      obtain ⟨conv', hconv', hwork, -⟩ := completeTask_object cfg.text taskId result now hconv
      have hobject := Engine.objects_of_conversation? hconv
      have hall := hfair
      simp only [fair, hconv, Option.all_some, Bool.and_eq_true, Bool.or_eq_true, decide_eq_true_eq, Bool.not_eq_true',
        List.contains_eq_mem, decide_eq_false_iff_not] at hall
      obtain ⟨hsome, hcases⟩ := hall
      have htasks : conv'.dispatchedTasks = conv.dispatchedTasks := congrArg Prod.fst hwork
      refine ⟨fun hnone => ?_, fun old hold _ => ?_, fun old hold => ?_⟩
      · exact absurd (hconv'.symm.trans hnone) (by simp)
      · obtain ⟨hsettled, hnone⟩ := (h.tallied c').dispatched conv hobject hsome
        exact ⟨hquiet.settled hsettled, hquiet.none_dispatches hnone⟩
      · obtain rfl := Option.some.inj (hconv'.symm.trans hold)
        rw [reportsOf_complete cfg s c' taskId result now hconv]
        refine (((h.tallied c').counted conv hobject).record ?_ hsome).of_work hwork
        refine hcases.imp_right fun hnew hsaid => ?_
        rcases hnew with hnot | hnew
        · rw [hsaid] at hnot
          cases hnot
        · exact hnew
  · rw [reportsOf_complete_of_ne hne]
    exact (h.tallied c').of_quiet hquiet (.of_eq (completeTask_of_ne hne))

theorem Sound.step (h : s.Sound) (hfair : s.fair e = true) : (s.step cfg e).Sound where
  disciplined := h.disciplined.step e
  tallied c := by
    cases e with
    | complete c' taskId result now => exact h.complete hfair c
    | receive id message conversationId killSwitch w =>
      have hstep := step_spec cfg s.engine (.receive id message conversationId killSwitch w)
      generalize hs' : BrainFlow.step cfg s.engine (.receive id message conversationId killSwitch w) = s' at hstep
      have hengine : (s.step cfg (.receive id message conversationId killSwitch w)).engine = s' := hs'
      rw [hengine]
      cases hstep with
      | nothing => exact h.tallied c
      | received _ _ _ _ hid hfresh =>
        exact (h.tallied c).of_quiet (quiet_receive hid hfresh) (carries_receive BrainConversation.work_unhandled hfresh)
    | resume id w =>
      have hstep := step_spec cfg s.engine (.resume id w)
      generalize hs' : BrainFlow.step cfg s.engine (.resume id w) = s' at hstep
      have hengine : (s.step cfg (.resume id w)).engine = s' := hs'
      rw [hengine]
      cases hstep with
      | nothing => exact h.tallied c
      | resumed _ _ _ _ _ hcall hconv hfresh =>
        exact tallied_resume (h.tallied c) (h.disciplined.progress c) hcall hconv hfresh

theorem sound_start : ({} : Watched).Sound where
  disciplined := disciplined_load ⟨[], List.nodup_nil⟩ 0
  tallied c := by
    refine ⟨fun _ => rfl, fun conv hconv => ?_, fun conv hconv => ?_⟩
    · cases hconv
    · cases hconv

/-- As long as reports are fair no conversation is delivered before all of its tasks are done. -/
theorem delivered_when_done {cfg : Config} {before after : List Event} {c taskId : String} {result : Dict Value}
    {now : Int}
    (h : Lib.Admitted (Watched.step cfg) (fun s e => s.fair e = true) {} (before ++ .complete c taskId result now :: after))
    (hdelivers : (Lib.run (Watched.step cfg) {} before).engine.Delivers cfg.text c taskId result now) :
    (Lib.run (Watched.step cfg) {} (before ++ [.complete c taskId result now])).Done c := by
  obtain ⟨hbefore, hfair, -⟩ := Lib.admitted_append.mp h
  have hsound := hbefore.invariant Sound sound_start fun s e hs he => hs.step he
  rw [Lib.run_append, Lib.run_cons, Lib.run_nil]
  generalize Lib.run (Watched.step cfg) {} before = s at hdelivers hfair hsound
  obtain ⟨conv, hconv, hmany⟩ := hdelivers.enough
  obtain ⟨conv', hconv', hwork, -⟩ := completeTask_object cfg.text taskId result now hconv
  have hafter := (@Sound.complete cfg s _ taskId result now hsound hfair c).counted conv' hconv'
  have htasks : conv'.dispatchedTasks = conv.dispatchedTasks := congrArg Prod.fst hwork
  refine ⟨conv', hconv', ?_, ?_⟩
  · rw [htasks]
    simp only [fair, hconv, Option.all_some, Bool.and_eq_true, decide_eq_true_eq] at hfair
    exact hfair.1
  · exact hafter.all (by rw [htasks, BrainConversation.completed_of_work hwork]; exact hmany)

/-- A plan that waits for its confirmation. -/
def planned : List Event :=
  [.receive ⟨"henry", 1⟩ "Fix the API bug" none false (world "a"), .resume ⟨"henry", 1⟩ (world "b"),
    .resume ⟨"henry", 1⟩ (world "c")]

/-- Its dispatch, of two tasks that others work on. -/
def handedOut : List Event :=
  planned ++ [.receive ⟨"henry", 2⟩ "ok" none false (world "d"), .resume ⟨"henry", 2⟩ (world "e"),
    .resume ⟨"henry", 2⟩ (world "f"), .resume ⟨"henry", 2⟩ (world "g")]

def half : List Event := handedOut ++ [.complete "a0" "f0" [] 0]

theorem delivered_when_done_both :
    (Lib.run (Watched.step (coreConfig false)) {} (half ++ [.complete "a0" "f1" [] 0])).Done "a0" :=
  delivered_when_done (by decide +kernel : Lib.Admitted _ _ _ (half ++ [.complete "a0" "f1" [] 0])) (.inl (by decide +kernel))

/-- A task that nobody dispatched, reported before the plan is confirmed, delivers it; one task
of two that is reported twice delivers both. -/
theorem ghost_and_repeated_report_deliver :
    ((Lib.run (Watched.step (coreConfig false)) {} planned).engine.Delivers (coreConfig false).text "a0" "ghost" [] 0 ∧
        ¬ (Lib.run (Watched.step (coreConfig false)) {} (planned ++ [.complete "a0" "ghost" [] 0])).Done "a0") ∧
      (Lib.run (Watched.step (coreConfig false)) {} half).engine.Delivers (coreConfig false).text "a0" "f0" [] 0 ∧
        ¬ (Lib.run (Watched.step (coreConfig false)) {} (half ++ [.complete "a0" "f0" [] 0])).Done "a0" := by
  refine ⟨⟨.inl (by decide +kernel), ?_⟩, .inl (by decide +kernel), ?_⟩
  · unfold Done
    decide +kernel
  · unfold Done
    decide +kernel

end Watched

end Occp.BrainFlow
