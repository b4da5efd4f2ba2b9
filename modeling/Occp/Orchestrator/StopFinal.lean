import Occp.Orchestrator.DispatchOnce

/-!
# A stop is final

A stopped conversation stays stopped as long as nothing that was started before the stop
comes to its end after it: neither a dispatch, which sets the phase when it is done, nor the
tasks, the last of which `complete_task` takes for a delivery.
-/

namespace Occp.BrainFlow

/-- The call hands out a plan, or will once it goes on. -/
def Stage.dispatchesWith (plan : Option Plan) : Stage → Bool
  | .updatingApproval => plan.isSome
  | stage => stage.dispatches

theorem Stage.dispatches_of_with {plan : Option Plan} {stage : Stage} (h : stage.dispatchesWith plan = true) :
    stage.dispatches = true := by
  cases stage with
  | updatingApproval => rfl
  | persisting | savingApproval | gatheringContext | addingTask | runningTask | persistingAgain | returned => exact h

namespace Engine

/-- Some call hands out the plan of the conversation, or will. -/
def isDispatching (s : Engine) (c : String) (plan : Option Plan) : Bool :=
  s.calls.any fun entry =>
    (s.call? entry.1).any fun call => call.conversationId = c && call.stage.dispatchesWith plan

/-- What leaves every stop as it is. No message stops a conversation in the middle of its
dispatch, and no completion that reaches a stopped one makes up the number of its tasks. -/
def keepsStops (s : Engine) : Event → Bool
  | .receive .. => true
  | .resume id _ =>
    match s.call? id with
    | some ⟨c, .persisting message⟩ =>
      (s.objects c).all fun conv =>
        !((conv.phase = .dispatch || conv.phase = .monitor) && stops message && s.isDispatching c conv.executionPlan)
    | _ => true
  | .complete c taskId result _ =>
    (s.conversation? c).all fun conv =>
      conv.phase ≠ .cancelled || (conv.record taskId result).completed < conv.dispatchedTasks.length

def phase? (s : Engine) (c : String) : Option FlowPhase := (s.objects c).map (·.phase)

theorem phase?_of_objects {s : Engine} {c : String} {conv : BrainConversation} (hconv : s.objects c = some conv) :
    s.phase? c = some conv.phase := by
  rw [phase?, hconv, Option.map_some]

theorem phase?_put_self (s : Engine) (c : String) (conv : BrainConversation) :
    (s.put c conv).phase? c = some conv.phase := phase?_of_objects (s.objects_put_self c conv)

theorem phase?_await (s : Engine) (id : CallId) (c c' : String) (stage : Stage) :
    (s.await id c stage).phase? c' = s.phase? c' := rfl

theorem phase?_note (s : Engine) (n : Note) (c : String) : (s.note n).phase? c = s.phase? c := rfl

end Engine

variable {c c' : String} {s s' s'' : Engine} {id : CallId}

theorem mem_calls_of_call? {call : Call} (h : s.call? id = some call) : ∃ call', (id, call') ∈ s.calls := by
  obtain ⟨before, after, hcalls, -⟩ := List.lookup_eq_some_iff.mp h
  exact ⟨call, by simp [hcalls]⟩

theorem isDispatching_iff {plan : Option Plan} :
    s.isDispatching c plan = true ↔ ∃ id stage, s.call? id = some ⟨c, stage⟩ ∧ stage.dispatchesWith plan = true := by
  simp only [Engine.isDispatching, List.any_eq_true, Option.any_eq_true, Bool.and_eq_true, decide_eq_true_eq]
  constructor
  · rintro ⟨entry, -, ⟨c', stage⟩, hcall, rfl, hstage⟩
    exact ⟨entry.1, stage, hcall, hstage⟩
  · rintro ⟨id, stage, hcall, hstage⟩
    obtain ⟨call', hmem⟩ := mem_calls_of_call? hcall
    exact ⟨(id, call'), hmem, ⟨c, stage⟩, hcall, rfl, hstage⟩

/-! ## What leaves a conversation as it is -/

/-- The phase and the plan stay, and a conversation that is new is at its beginning. -/
structure Kept (c : String) (s s' : Engine) : Prop where
  old : ∀ conv, s.objects c = some conv →
    ∃ conv', s'.objects c = some conv' ∧ conv'.phase = conv.phase ∧ conv'.executionPlan = conv.executionPlan
  new : s.objects c = none → ∀ conv', s'.objects c = some conv' → conv'.phase.settled = false

theorem Kept.of_eq (h : s'.objects c = s.objects c) : Kept c s s' where
  old conv hconv := ⟨conv, h.trans hconv, rfl, rfl⟩
  new hnone conv' hconv' := by
    rw [h, hnone] at hconv'
    cases hconv'

theorem Kept.trans (h : Kept c s s') (h' : Kept c s' s'') : Kept c s s'' where
  old conv hconv := by
    obtain ⟨conv', hconv', hphase, hplan⟩ := h.old conv hconv
    obtain ⟨conv'', hconv'', hphase', hplan'⟩ := h'.old conv' hconv'
    exact ⟨conv'', hconv'', hphase'.trans hphase, hplan'.trans hplan⟩
  new hnone conv'' hconv'' := by
    cases hconv' : s'.objects c with
    | none => exact h'.new hconv' conv'' hconv''
    | some conv' =>
      obtain ⟨conv, hconv, hphase, -⟩ := h'.old conv' hconv'
      rw [hconv''] at hconv
      cases hconv
      rw [hphase]
      exact h.new hnone conv' hconv'

theorem kept_put {conv conv' : BrainConversation} (hconv : s.objects c' = some conv)
    (h : c' = c → conv'.phase = conv.phase ∧ conv'.executionPlan = conv.executionPlan) : Kept c s (s.put c' conv') := by
  by_cases hc : c = c'
  · subst hc
    refine ⟨fun old hold => ?_, fun hnone => ?_⟩
    · rw [hconv] at hold
      cases hold
      exact ⟨conv', by simp, h rfl⟩
    · rw [hconv] at hnone
      cases hnone
  · exact .of_eq (by simp [hc])

theorem kept_create (user : String) (now : Int) (hfresh : s.objects c' = none) :
    Kept c s (s.createConversation user c' now) := by
  by_cases hc : c = c'
  · subst hc
    refine ⟨fun old hold => ?_, fun _ conv' hconv' => ?_⟩
    · rw [hfresh] at hold
      cases hold
    · rw [Engine.objects_createConversation, if_pos rfl] at hconv'
      cases hconv'
      rfl
  · exact .of_eq (by simp [hc])

theorem kept_start (cfg : Config) (user message : String) (now : Int) (hfresh : s.objects c' = none) :
    Kept c s (s.startConversation cfg user c' message now).1 := by
  by_cases hc : c = c'
  · subst hc
    refine ⟨fun old hold => ?_, fun _ conv' hconv' => ?_⟩
    · rw [hfresh] at hold
      cases hold
    · unfold Engine.startConversation at hconv'
      dsimp only at hconv'
      rw [Engine.objects_put, if_pos rfl, Option.some.injEq] at hconv'
      rw [← hconv']
      exact BrainConversation.handleIntake_phase _ _
  · refine .of_eq ?_
    unfold Engine.startConversation
    simp [hc]

theorem kept_getOrCreate (user : String) (conversationId : Option String) (w : World)
    (hfresh : s.objects (w.uuid 0) = none) : Kept c s (s.getOrCreateConversation user conversationId w).1 := by
  unfold Engine.getOrCreateConversation Engine.getActiveConversations
  split
  · exact .of_eq rfl
  · dsimp only
    split
    · exact .of_eq rfl
    · have hexpire : Kept c s (s.expireConversations user w.now) := .of_eq rfl
      exact hexpire.trans (kept_create user w.now hfresh)

theorem kept_receive {message : String} {conversationId : Option String} {w : World}
    (hfresh : s.objects (w.uuid 0) = none) : Kept c s (s.receive id message conversationId w) := by
  have hexpire : Kept c s (s.expireConversations id.user w.now) := .of_eq rfl
  have hget := hexpire.trans (kept_getOrCreate id.user conversationId w hfresh)
  unfold Engine.receive
  dsimp only
  split
  · exact hget
  · next conv hconv =>
    have hput : Kept c _ (Engine.put _ _ (conv.touch w.now)) := kept_put hconv fun _ => ⟨rfl, rfl⟩
    exact hget.trans (hput.trans (.of_eq rfl))

/-! ## One step -/

/-- The conversation is cancelled, and no call has anything of it to hand out. -/
def Stopped (s : Engine) (c : String) : Prop :=
  ∃ conv, s.objects c = some conv ∧ conv.phase = .cancelled ∧
    ∀ id stage, s.call? id = some ⟨c, stage⟩ → stage.dispatchesWith conv.executionPlan = false

theorem Stopped.phase (h : Stopped s c) : s.phase? c = some .cancelled := by
  obtain ⟨conv, hconv, hphase, -⟩ := h
  rw [Engine.phase?, hconv, Option.map_some, hphase]

theorem Stopped.of_quiet (h : Stopped s c) (hquiet : Quiet c s s') (hkept : Kept c s s') : Stopped s' c := by
  obtain ⟨conv, hconv, hphase, hnone⟩ := h
  obtain ⟨conv', hconv', hphase', hplan⟩ := hkept.old conv hconv
  refine ⟨conv', hconv', hphase'.trans hphase, fun id stage hcall => ?_⟩
  by_contra hstage
  rw [Bool.not_eq_false, hplan] at hstage
  have hbefore := hnone id stage ((hquiet.calls id stage (Stage.dispatches_of_with hstage)).mp hcall)
  rw [hstage] at hbefore
  cases hbefore

theorem stopped_await {conv : BrainConversation} {stage : Stage} (hconv : s.objects c = some conv)
    (hphase : conv.phase = .cancelled) (hstage : stage.dispatchesWith conv.executionPlan = false)
    (hothers : ∀ id' ≠ id, ∀ stage', s.call? id' = some ⟨c, stage'⟩ →
      stage'.dispatchesWith conv.executionPlan = false) : Stopped (s.await id c stage) c := by
  refine ⟨conv, hconv, hphase, fun id' stage' hcall => ?_⟩
  rw [Engine.call?_await] at hcall
  split at hcall
  · obtain ⟨-, rfl⟩ := Call.mk.inj (Option.some.inj hcall)
    exact hstage
  · next hne => exact hothers id' hne stage' hcall

theorem Stage.not_dispatchesWith {plan : Option Plan} {stage : Stage} (h : stage.dispatches = false) :
    stage.dispatchesWith plan = false := by
  by_contra hwith
  rw [Bool.not_eq_false] at hwith
  rw [Stage.dispatches_of_with hwith] at h
  cases h

section

variable {cfg : Config} {conv : BrainConversation} {w : World} {stage : Stage}

theorem kept_resume_of_ne (hconv : s.objects c' = some conv) (hfresh : s.objects (w.uuid 0) = none) (hne : c' ≠ c) :
    Kept c s (s.resume cfg id c' conv w stage) := by
  have hput (s : Engine) (conv : BrainConversation) : Kept c s (s.put c' conv) := .of_eq (by simp [hne.symm])
  have hnext (d : Dispatch) : Kept c s (s.nextStep id c' conv d w) := by
    unfold Engine.nextStep
    split
    · exact .of_eq rfl
    · exact (hput s _).trans (.of_eq rfl)
  cases stage with
  | savingApproval | persistingAgain | returned | addingTask => exact .of_eq rfl
  | gatheringContext => exact hnext _
  | runningTask => exact hnext _
  | updatingApproval =>
    rw [Engine.resume, Engine.dispatchTasks]
    split
    · exact (hput s _).trans (.of_eq rfl)
    · dsimp only
      split
      · exact .of_eq rfl
      · exact .of_eq (by simp [hne.symm])
  | persisting message =>
    have hother : w.uuid 0 ≠ c' := by
      rintro heq
      rw [heq, hconv] at hfresh
      cases hfresh
    rw [Engine.resume, Engine.routeMessage]
    dsimp only
    split
    · exact .of_eq (by simp [hne.symm])
    · next conv' _ =>
      have hnote : Kept c s (s.note (.routed id c' conv.phase message)) := .of_eq rfl
      refine (hnote.trans (hput _ conv')).trans ((kept_start cfg conv'.userId message w.now ?_).trans (.of_eq rfl))
      simpa [hother] using hfresh
    · have hnote : Kept c s (s.note (.routed id c' conv.phase message)) := .of_eq rfl
      exact hnote.trans ((kept_start (s := s.note _) cfg id.user message w.now hfresh).trans (.of_eq rfl))

/-- A call that goes on with a stopped conversation starts nothing and leaves it stopped. -/
theorem stopped_resume (h : Stopped s c) (hcall : s.call? id = some ⟨c, stage⟩) (hconv : s.objects c = some conv)
    (hfresh : s.objects (w.uuid 0) = none) :
    Stopped (s.resume cfg id c conv w stage) c ∧ runsOf c (s.resume cfg id c conv w stage).log = runsOf c s.log := by
  have hstopped := h
  obtain ⟨old, hold, hphase, hnone⟩ := h
  rw [hconv] at hold
  cases hold
  cases stage with
  | persisting message =>
    have hquiet : Quiet c s (s.routeMessage cfg id c conv message w) :=
      quiet_route hcall hconv hfresh fun _ hconfirm => by simp [hphase] at hconfirm
    have hkept : Kept c s (s.routeMessage cfg id c conv message w) := by
      rw [Engine.routeMessage, BrainConversation.handle_cancelled hphase]
      have hnote : Kept c s (s.note (.routed id c conv.phase message)) := .of_eq rfl
      exact hnote.trans ((kept_start (s := s.note _) cfg id.user message w.now hfresh).trans (.of_eq rfl))
    exact ⟨hstopped.of_quiet hquiet hkept, hquiet.runs⟩
  | savingApproval reply | persistingAgain reply =>
    exact ⟨stopped_await hconv hphase rfl fun id' _ => hnone id', rfl⟩
  | returned reply => exact ⟨hstopped, rfl⟩
  | updatingApproval =>
    have hplan : conv.executionPlan = none := by simpa [Stage.dispatchesWith] using hnone id _ hcall
    rw [Engine.resume, Engine.dispatchTasks, hplan]
    rw [hplan] at hnone
    exact ⟨stopped_await (s.objects_put_self c _) rfl rfl fun id' _ => hnone id', rfl⟩
  | gatheringContext | addingTask | runningTask => cases hnone id _ hcall

theorem stopped_step (h : Stopped s c) {e : Event} (hok : s.keepsStops e = true) :
    Stopped (step cfg s e) c ∧ runsOf c (step cfg s e).log = runsOf c s.log := by
  have hstep := step_spec cfg s e
  generalize step cfg s e = s' at hstep
  cases hstep with
  | nothing => exact ⟨h, rfl⟩
  | received id message conversationId w hid hfresh =>
    have hquiet : Quiet c s (s.receive id message conversationId w) := quiet_receive hid hfresh
    exact ⟨h.of_quiet hquiet (kept_receive hfresh), hquiet.runs⟩
  | resumed id w c' stage conv hcall hconv hfresh =>
    by_cases hne : c' = c
    · subst hne
      exact stopped_resume h hcall hconv hfresh
    · have hquiet : Quiet c s (s.resume cfg id c' conv w stage) := quiet_resume_of_ne hcall hconv hfresh hne
      exact ⟨h.of_quiet hquiet (kept_resume_of_ne hconv hfresh hne), hquiet.runs⟩
  | completed c' taskId result now =>
    have hquiet : Quiet c s (s.completeTask cfg.text c' taskId result now).1 :=
      quiet_complete cfg.text taskId result now
    refine ⟨h.of_quiet hquiet ?_, hquiet.runs⟩
    unfold Engine.completeTask
    split
    · exact .of_eq rfl
    · next conv hconv =>
      have hobject := Engine.objects_of_conversation? hconv
      by_cases hne : c' = c
      · subst hne
        obtain ⟨old, hold, hphase, -⟩ := h
        rw [hobject] at hold
        cases hold
        have hfew : (conv.record taskId result).completed < conv.dispatchedTasks.length := by
          simpa [Engine.keepsStops, hconv, hphase] using hok
        dsimp only
        split
        · next hmany => exact absurd hmany (Nat.not_le.mpr hfew)
        · exact kept_put hobject fun _ => ⟨rfl, rfl⟩
      · dsimp only
        split <;> exact .of_eq (by simp [Ne.symm hne])

theorem Kept.phase (h : Kept c s s') (hphase : s'.phase? c = some .cancelled) : s.phase? c = some .cancelled := by
  obtain ⟨conv', hconv', hphase'⟩ := Option.map_eq_some_iff.mp hphase
  cases hconv : s.objects c with
  | none =>
    have hnew := h.new hconv conv' hconv'
    rw [hphase'] at hnew
    cases hnew
  | some conv =>
    obtain ⟨conv'', hconv'', hsame, -⟩ := h.old conv hconv
    rw [hconv'] at hconv''
    cases hconv''
    rw [Engine.phase?, hconv, Option.map_some, ← hsame, hphase']

/-- A message that cancels its conversation finds no call that dispatches it. -/
theorem stopped_route {message : String} (hp : Progress s c) (hcall : s.call? id = some ⟨c, .persisting message⟩)
    (hconv : s.objects c = some conv) (hfresh : s.objects (w.uuid 0) = none) (hnot : conv.phase ≠ .cancelled)
    (hok : s.keepsStops (.resume id w) = true)
    (h : (s.routeMessage cfg id c conv message w).phase? c = some .cancelled) :
    Stopped (s.routeMessage cfg id c conv message w) c := by
  have hother : c ≠ w.uuid 0 := by
    rintro rfl
    rw [hconv] at hfresh
    cases hfresh
  rcases hhandle : conv.handle cfg.route message with _ | ⟨conv', _ | handled⟩
  · -- a new conversation is at its beginning, and this one was not cancelled
    simp only [Engine.routeMessage, hhandle] at h
    have hkept : Kept c (s.note (.routed id c conv.phase message)) _ := kept_start cfg id.user message w.now hfresh
    have hphase := hkept.phase h
    rw [Engine.phase?_note, Engine.phase?_of_objects hconv] at hphase
    exact absurd (Option.some.inj hphase) hnot
  · simp only [Engine.routeMessage, hhandle] at h
    have hfresh' : ((s.note (.routed id c conv.phase message)).put c conv').objects (w.uuid 0) = none := by
      simpa [hother.symm] using hfresh
    have hkept : Kept c ((s.note (.routed id c conv.phase message)).put c conv') _ :=
      kept_start cfg conv'.userId message w.now hfresh'
    have hphase := hkept.phase h
    rw [Engine.phase?_put_self] at hphase
    cases BrainConversation.handle_spec hhandle with
    | left => cases hphase
    | followed => exact absurd (Option.some.inj hphase) hnot
  · simp only [Engine.routeMessage, hhandle] at h ⊢
    rw [Engine.phase?_await, Engine.phase?_put_self] at h
    cases BrainConversation.handle_spec hhandle with
    | planned _ hphase' =>
      rw [Option.some.inj h] at hphase'
      cases hphase'
    | approved | watched | rated => cases h
    | rejected hphase reply =>
      refine stopped_await (Engine.objects_put_self _ _ _) rfl rfl fun id' _ stage' hcall' => ?_
      refine Stage.not_dispatchesWith ?_
      cases hp with
      | idle _ _ hnone => exact hnone id' stage' hcall'
      | approved _ _ _ _ _ hsettled | underway _ _ _ _ _ _ _ _ _ hsettled | finished _ _ _ _ _ _ _ hsettled =>
        obtain ⟨old, hold, hsettled⟩ := hsettled
        rw [hconv] at hold
        cases hold
        rw [hphase] at hsettled
        cases hsettled
    | stopped hphase hmessage reply =>
      refine stopped_await (Engine.objects_put_self _ _ _) rfl rfl fun id' _ stage' hcall' => ?_
      by_contra hstage
      rw [Bool.not_eq_false] at hstage
      have hdispatching : s.isDispatching c conv.executionPlan = true :=
        isDispatching_iff.mpr ⟨id', stage', hcall', hstage⟩
      simp only [Engine.keepsStops, hcall, hconv, Option.all_some, hmessage, hdispatching, Bool.and_true,
        Bool.not_eq_true', Bool.or_eq_false_iff, decide_eq_false_iff_not] at hok
      exact hphase.elim hok.1 hok.2

/-- A dispatch that ends without a plan was the only one. -/
theorem stopped_dispatch (hp : Progress s c) (hcall : s.call? id = some ⟨c, .updatingApproval⟩)
    (hconv : s.objects c = some conv) (hnot : conv.phase ≠ .cancelled)
    (h : (s.dispatchTasks cfg id c conv w).phase? c = some .cancelled) :
    Stopped (s.dispatchTasks cfg id c conv w) c := by
  obtain ⟨-, -, honly, -⟩ := hp.of_updatingApproval hcall
  cases hplan : conv.executionPlan with
  | none =>
    simp only [Engine.dispatchTasks, hplan] at h ⊢
    refine stopped_await (Engine.objects_put_self _ _ _) rfl rfl fun id' hne stage' hcall' => ?_
    refine Stage.not_dispatchesWith (by_contra fun hstage => hne (honly id' stage' hcall' ?_))
    simpa using hstage
  | some plan =>
    simp only [Engine.dispatchTasks, hplan] at h
    split at h
    · rw [Engine.phase?_await, Engine.phase?_note, Engine.phase?_of_objects hconv] at h
      exact absurd (Option.some.inj h) hnot
    · rw [Engine.phase?_await, Engine.phase?_put_self] at h
      cases h

theorem next_not_cancelled {d : Dispatch} (hconv : s.objects c = some conv) (hnot : conv.phase ≠ .cancelled) :
    (s.nextStep id c conv d w).phase? c ≠ some .cancelled := by
  unfold Engine.nextStep
  split
  · rw [Engine.phase?_await, Engine.phase?_of_objects hconv]
    simpa using hnot
  · rw [Engine.phase?_await, Engine.phase?_put_self]
    simp

theorem stopped_of_cancelled (hd : Disciplined s) (hall : ∀ c, s.phase? c = some .cancelled → Stopped s c) {e : Event}
    (hok : s.keepsStops e = true) (h : (step cfg s e).phase? c = some .cancelled) : Stopped (step cfg s e) c := by
  by_cases hbefore : s.phase? c = some .cancelled
  · exact (stopped_step (hall c hbefore) hok).1
  · have hstep := step_spec cfg s e
    generalize step cfg s e = s' at hstep h
    cases hstep with
    | nothing => exact absurd h hbefore
    | received id message conversationId w hid hfresh => exact absurd ((kept_receive hfresh).phase h) hbefore
    | completed c' taskId result now =>
      refine absurd ?_ hbefore
      revert h
      unfold Engine.completeTask
      split
      · exact fun h => h
      · next conv hconv =>
        have hobject := Engine.objects_of_conversation? hconv
        dsimp only
        split
        · intro h
          by_cases hne : c = c'
          · subst hne
            rw [Engine.phase?_put_self] at h
            cases h
          · simpa [Engine.phase?, hne] using h
        · have hput : Kept c s (s.put c' ((conv.record taskId result).touch now)) := kept_put hobject fun _ => ⟨rfl, rfl⟩
          exact hput.phase
    | resumed id w c' stage conv hcall hconv hfresh =>
      by_cases hne : c' = c
      · subst hne
        have hnot : conv.phase ≠ .cancelled := by
          intro hphase
          rw [Engine.phase?_of_objects hconv, hphase] at hbefore
          exact hbefore rfl
        cases stage with
        | persisting message => exact stopped_route (hd.progress c') hcall hconv hfresh hnot hok h
        | updatingApproval => exact stopped_dispatch (hd.progress c') hcall hconv hnot h
        | savingApproval | addingTask | persistingAgain | returned => exact absurd h hbefore
        | gatheringContext => exact absurd h (next_not_cancelled hconv hnot)
        | runningTask => exact absurd h (next_not_cancelled hconv hnot)
      · exact absurd ((kept_resume_of_ne hconv hfresh hne).phase h) hbefore

/-! ## Runs -/

/-- The events leave every stop as it is, from a start with the table. -/
def KeepsStops (cfg : Config) (table : Table) (now : Int) (events : List Event) : Prop :=
  Lib.Admitted (step cfg) (fun s e => s.keepsStops e = true) (.loadActiveConversations table now) events

/-- Once a conversation is cancelled it stays so, and no step of its plan is run any more. -/
theorem stop_is_final (cfg : Config) (table : Table) (now : Int) (before after : List Event)
    (h : KeepsStops cfg table now (before ++ after)) (c : String)
    (hc : (history cfg table now before).phase? c = some .cancelled) :
    (history cfg table now (before ++ after)).phase? c = some .cancelled ∧
      runsOf c (history cfg table now (before ++ after)).log = runsOf c (history cfg table now before).log := by
  obtain ⟨hbefore, hafter⟩ := Lib.admitted_append.mp h
  have hstart : ∀ c, (Engine.loadActiveConversations table now).phase? c = some .cancelled →
      Stopped (.loadActiveConversations table now) c := by
    intro c hphase
    obtain ⟨conv, hconv, hphase⟩ := Option.map_eq_some_iff.mp hphase
    refine ⟨conv, hconv, hphase, fun id stage hcall => ?_⟩
    rw [Engine.call?_loadActiveConversations] at hcall
    cases hcall
  have hall : ∀ c, (history cfg table now before).phase? c = some .cancelled →
      Stopped (history cfg table now before) c := by
    refine (hbefore.invariant (fun s => Disciplined s ∧ ∀ c, s.phase? c = some .cancelled → Stopped s c)
      ⟨disciplined_load table now, hstart⟩ fun s e hs hok => ⟨hs.1.step e, fun c hc => ?_⟩).2
    exact stopped_of_cancelled hs.1 hs.2 hok hc
  have hend := hafter.invariant
    (fun s => Stopped s c ∧ runsOf c s.log = runsOf c (history cfg table now before).log) ⟨hall c hc, rfl⟩
    fun s e hs hok => (stopped_step hs.1 hok).imp_right fun hruns => hruns.trans hs.2
  rw [history_append]
  exact ⟨hend.1.phase, hend.2⟩

end

/-! ## Two stops that were not final -/

instance (cfg : Config) (table : Table) (now : Int) (events : List Event) :
    Decidable (KeepsStops cfg table now events) :=
  inferInstanceAs (Decidable (Lib.Admitted _ _ _ _))

/-- A plan is approved, and its dispatch begins. -/
def approved : List Event :=
  [.receive ⟨"henry", 1⟩ "Fix the API bug" none false (world "a"), .resume ⟨"henry", 1⟩ (world "b"),
    .receive ⟨"henry", 2⟩ "ok" none false (world "c"), .resume ⟨"henry", 2⟩ (world "d"),
    .resume ⟨"henry", 2⟩ (world "e")]

def stop : List Event := [.receive ⟨"henry", 3⟩ "stop" none false (world "f"), .resume ⟨"henry", 3⟩ (world "g")]

def firstStep : List Event := [.resume ⟨"henry", 2⟩ (world "h"), .resume ⟨"henry", 2⟩ (world "i")]

def otherStep : List Event :=
  [.resume ⟨"henry", 2⟩ (world "j"), .resume ⟨"henry", 2⟩ (world "k"), .resume ⟨"henry", 2⟩ (world "l")]

def tasksDone : List Event := [.complete "a0" "e0" [] 0, .complete "a0" "e1" [] 0]

/-- A dispatch runs the rest of the plan after a stop and ends in `COMPLETED`, and the last
completion reopens a stopped conversation for its delivery. -/
theorem stop_undone :
    ((history (coreConfig true) emptyTable 0 (approved ++ firstStep ++ stop)).phase? "a0" = some .cancelled ∧
      runsOf "a0" (history (coreConfig true) emptyTable 0 (approved ++ firstStep ++ stop)).log =
        [(⟨"henry", 2⟩, 0)] ∧
      (history (coreConfig true) emptyTable 0 (approved ++ firstStep ++ stop ++ otherStep)).phase? "a0" =
        some .completed ∧
      runsOf "a0" (history (coreConfig true) emptyTable 0 (approved ++ firstStep ++ stop ++ otherStep)).log =
        [(⟨"henry", 2⟩, 0), (⟨"henry", 2⟩, 1)]) ∧
    (history (coreConfig false) emptyTable 0 (approved ++ stop)).phase? "a0" = some .cancelled ∧
      (history (coreConfig false) emptyTable 0 (approved ++ stop ++ tasksDone)).phase? "a0" = some .deliver := by
  decide +kernel

theorem stop_is_final_one_done :
    (history (coreConfig false) emptyTable 0 (approved ++ stop ++ tasksDone.take 1)).phase? "a0" = some .cancelled ∧
      runsOf "a0" (history (coreConfig false) emptyTable 0 (approved ++ stop ++ tasksDone.take 1)).log =
        runsOf "a0" (history (coreConfig false) emptyTable 0 (approved ++ stop)).log :=
  stop_is_final (coreConfig false) emptyTable 0 (approved ++ stop) (tasksDone.take 1) (by decide +kernel) "a0"
    (by decide +kernel)

end Occp.BrainFlow
