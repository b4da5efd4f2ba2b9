import Occp.Orchestrator.DispatchOnce

/-!
# Cancelling words in a confirmation

A call routes one message, its own. In `CONFIRM` a message that has an approving word dispatches,
whatever other words it has.
-/

namespace Occp.BrainFlow

/-! ## Words -/

def isWordChar (c : Char) : Bool := c.isAlphanum || c = '_' || 128 ≤ c.toNat

/-- A cancelling keyword that no letter, digit or underscore touches. -/
def hasCancelWord (message : String) : Bool :=
  ((normalized message).splitOnP fun c => !isWordChar c).any fun word => cancelKeywords.contains (String.ofList word)

theorem approves_iff (message : String) :
    approves message = true ↔ ∃ word ∈ Text.split (normalized message), String.ofList word ∈ approveKeywords := by
  constructor
  · exact approves_word
  · rintro ⟨word, hword, hkeyword⟩
    simp only [approves, saysOneOf, Bool.or_eq_true, List.any_eq_true, List.contains_iff_mem]
    exact .inl ⟨word, hword, hkeyword⟩

/-! ## One message a call -/

variable {cfg : Config} {s : Engine} {id id' : CallId} {c : String} {message : String}

/-- A call that has routed its message is past it, and has routed no other. -/
def RoutedOnce (s : Engine) : Prop :=
  ∀ id c phase message, .routed id c phase message ∈ s.log →
    (∃ call, s.call? id = some call ∧ ∀ m, call.stage ≠ .persisting m) ∧
      ∀ c' phase' message', .routed id c' phase' message' ∈ s.log → message' = message

/-- The call is past its message, and the others are where they were. -/
def GoesPast (s s' : Engine) (id : CallId) : Prop :=
  ∃ call : Call, (∀ m, call.stage ≠ .persisting m) ∧
    ∀ id', s'.call? id' = if id' = id then some call else s.call? id'

theorem GoesPast.await {s' : Engine} {stage : Stage} (hstage : ∀ m, stage ≠ .persisting m) (hcalls : s'.call? = s.call?) :
    GoesPast s (s'.await id c stage) id :=
  ⟨⟨c, stage⟩, hstage, fun id' => by rw [Engine.call?_await, hcalls]⟩

theorem GoesPast.handled {s' : Engine} (handled : Handled) (hcalls : s'.call? = s.call?) :
    GoesPast s (s'.await id c handled.stage) id := by
  refine .await (fun m => ?_) hcalls
  cases handled <;> simp [Handled.stage]

theorem resume_goesPast (cfg : Config) (conv : BrainConversation) (w : World) {stage : Stage}
    (hcall : s.call? id = some ⟨c, stage⟩) : GoesPast s (s.resume cfg id c conv w stage) id := by
  have hnext (d : Dispatch) : GoesPast s (s.nextStep id c conv d w) id := by
    unfold Engine.nextStep
    split <;> exact .await (by simp) rfl
  cases stage with
  | persisting message =>
    unfold Engine.resume Engine.routeMessage
    dsimp only
    split <;> exact .handled _ rfl
  | updatingApproval =>
    rw [Engine.resume, Engine.dispatchTasks]
    split
    · exact .await (by simp) rfl
    · dsimp only
      split <;> exact .await (by simp) rfl
  | gatheringContext plan => exact hnext _
  | runningTask d task => exact hnext _
  | savingApproval | addingTask | persistingAgain => exact .await (by simp) rfl
  | returned reply =>
    refine ⟨⟨c, .returned reply⟩, by simp, fun id' => ?_⟩
    split
    · next hid => rw [hid]; exact hcall
    · rfl

/-- A routed message is the one that its call was waiting with. -/
theorem routed_resume (cfg : Config) (conv : BrainConversation) (w : World) {stage : Stage} {id' : CallId} {c' : String}
    {phase : FlowPhase} (h : .routed id' c' phase message ∈ (s.resume cfg id c conv w stage).log) :
    .routed id' c' phase message ∈ s.log ∨ id' = id ∧ stage = .persisting message := by
  have hnote {n : Note} (h : .routed id' c' phase message ∈ s.log ++ [n]) :
      .routed id' c' phase message ∈ s.log ∨ .routed id' c' phase message = n := by simpa using h
  cases stage with
  | persisting m =>
    have hlog : (s.resume cfg id c conv w (.persisting m)).log = s.log ++ [.routed id c conv.phase m] := by
      simp only [Engine.resume, Engine.routeMessage]
      split <;> rfl
    rw [hlog] at h
    refine (hnote h).imp_right fun heq => ?_
    obtain ⟨hid, -, -, hm⟩ := Note.routed.inj heq
    exact ⟨hid, by rw [hm]⟩
  | updatingApproval =>
    simp only [Engine.resume, Engine.dispatchTasks] at h
    split at h
    · exact .inl h
    · next plan _ =>
      have hin : .routed id' c' phase message ∈ s.log ++ [.dispatched id c plan] := by
        split at h <;> exact h
      exact (hnote hin).imp_right fun heq => by cases heq
  | gatheringContext | runningTask =>
    rw [Engine.resume, Engine.log_nextStep] at h
    exact .inl h
  | savingApproval | persistingAgain | returned => exact .inl h
  | addingTask d task => exact (hnote h).imp_right fun heq => by cases heq

theorem log_receive (id : CallId) (message : String) (conversationId : Option String) (w : World) :
    (s.receive id message conversationId w).log = s.log ∨
      ∃ c phase, (s.receive id message conversationId w).log = s.log ++ [.received id c phase message] := by
  have hlog := Engine.log_getOrCreateConversation (s.expireConversations id.user w.now) id.user conversationId w
  unfold Engine.receive
  dsimp only
  split
  · exact .inl hlog
  · exact .inr ⟨_, _, congrArg (· ++ [_]) hlog⟩

theorem call?_receive (hne : id' ≠ id) (message : String) (conversationId : Option String) (w : World) :
    (s.receive id message conversationId w).call? id' = s.call? id' := by
  unfold Engine.receive
  dsimp only
  split
  · rw [Engine.call?_getOrCreateConversation, Engine.call?_expireConversations]
  · rw [Engine.call?_await, if_neg hne, Engine.call?_note, Engine.call?_put, Engine.call?_getOrCreateConversation,
      Engine.call?_expireConversations]

theorem RoutedOnce.resume {conv : BrainConversation} {w : World} {stage : Stage} (h : RoutedOnce s)
    (hcall : s.call? id = some ⟨c, stage⟩) : RoutedOnce (s.resume cfg id c conv w stage) := by
  obtain ⟨call, hpast, hcalls⟩ := resume_goesPast cfg conv w hcall
  intro id' c' phase message hrouted
  have hold := routed_resume cfg conv w hrouted
  refine ⟨?_, fun c'' phase' message' hrouted' => ?_⟩
  · rw [hcalls id']
    split
    · exact ⟨call, rfl, hpast⟩
    · next hne =>
      rcases hold with hin | ⟨hid, -⟩
      · exact (h id' c' phase message hin).1
      · exact absurd hid hne
  · have hold' := routed_resume cfg conv w hrouted'
    have hwaits {m m' : String} {c₁ : String} {phase₁ : FlowPhase} (hin : .routed id c₁ phase₁ m ∈ s.log)
        (hstage : stage = .persisting m') : False := by
      obtain ⟨⟨call', hcall', hnot⟩, -⟩ := h id c₁ phase₁ m hin
      rw [hcall] at hcall'
      cases hcall'
      exact hnot m' hstage
    rcases hold with hin | ⟨hid, hstage⟩ <;> rcases hold' with hin' | ⟨hid', hstage'⟩
    · exact (h id' c' phase message hin).2 c'' phase' message' hin'
    · exact (hwaits (hid' ▸ hin) hstage').elim
    · exact (hwaits (hid ▸ hin') hstage).elim
    · exact (Stage.persisting.inj (hstage.symm.trans hstage')).symm

theorem RoutedOnce.step (h : RoutedOnce s) (e : Event) : RoutedOnce (step cfg s e) := by
  have hstep := step_spec cfg s e
  generalize BrainFlow.step cfg s e = s' at hstep
  cases hstep with
  | nothing => exact h
  | resumed id w c stage conv hcall => exact h.resume hcall
  | completed c taskId result now =>
    unfold Engine.completeTask
    split
    · exact h
    · dsimp only
      split <;> exact h
  | received id message conversationId w hid =>
    have hin {id' : CallId} {c' : String} {phase : FlowPhase} {m : String}
        (hrouted : .routed id' c' phase m ∈ (s.receive id message conversationId w).log) :
        .routed id' c' phase m ∈ s.log := by
      rcases log_receive (s := s) id message conversationId w with hlog | ⟨c, phase', hlog⟩
      · rwa [hlog] at hrouted
      · rw [hlog] at hrouted
        simpa using hrouted
    intro id' c' phase m hrouted
    obtain ⟨⟨call, hcall, hpast⟩, honly⟩ := h id' c' phase m (hin hrouted)
    refine ⟨⟨call, ?_, hpast⟩, fun c'' phase' m' hrouted' => honly c'' phase' m' (hin hrouted')⟩
    -- A call that has routed a message is there, so it is not the one that is received.
    have hne : id' ≠ id := by
      rintro rfl
      rw [hid] at hcall
      cases hcall
    rwa [call?_receive hne]

theorem history_routedOnce (cfg : Config) (table : Table) (now : Int) (events : List Event) :
    RoutedOnce (history cfg table now events) := by
  refine Lib.run_invariant RoutedOnce (fun _ e h => h.step e) (fun id c phase message h => ?_) events
  rw [(Engine.calls_loadActiveConversations table now).2] at h
  exact absurd h List.not_mem_nil

/-! ## Confirmations -/

/-- No call that routes the message in `CONFIRM` ever dispatches, in any run. -/
def NeverDispatches (message : String) : Prop :=
  ∀ (cfg : Config) (table : Table) (now : Int) (events : List Event) (id : CallId) (c c' : String) (plan : Plan),
    .routed id c .confirm message ∈ (history cfg table now events).log →
      .dispatched id c' plan ∉ (history cfg table now events).log

theorem neverDispatches_of_not_approves (h : approves message = false) : NeverDispatches message := by
  intro cfg table now events id c c' plan hrouted hdispatched
  obtain ⟨before, after, hlog⟩ := List.append_of_mem hdispatched
  obtain ⟨message', hrouted', happroves⟩ := (history_disciplined cfg table now events).ordered before after id c' plan hlog
  have hin : .routed id c' .confirm message' ∈ (history cfg table now events).log := by
    rw [hlog]
    exact List.mem_append_left _ hrouted'
  rw [(history_routedOnce cfg table now events id c .confirm message hrouted).2 c' .confirm message' hin, h] at happroves
  cases happroves

/-- A call that waits with an approving message for a plan dispatches it when it goes on twice. -/
theorem dispatches_of_approves {conv : BrainConversation} {plan : Plan} {w w' : World} (h : approves message = true)
    (hcall : s.call? id = some ⟨c, .persisting message⟩) (hconv : s.objects c = some conv) (hphase : conv.phase = .confirm)
    (hplan : conv.executionPlan = some plan) (hfresh : s.objects (w.uuid 0) = none) (hfresh' : s.objects (w'.uuid 0) = none)
    (hne : w'.uuid 0 ≠ c) :
    let s' := step cfg (step cfg s (.resume id w)) (.resume id w')
    .routed id c .confirm message ∈ s'.log ∧ .dispatched id c plan ∈ s'.log := by
  have hfirst : step cfg s (.resume id w) =
      ((s.note (.routed id c .confirm message)).put c { conv with planApproved := true, phase := .dispatch }).await id c
        .updatingApproval := by
    rw [step, hcall]
    dsimp only
    rw [hconv]
    dsimp only
    rw [hfresh, if_neg (by simp), Engine.resume, Engine.routeMessage, hphase,
      BrainConversation.handle_approved hphase h]
    rfl
  dsimp only
  rw [hfirst, step, Engine.call?_await_self]
  dsimp only
  rw [Engine.objects_await, Engine.objects_put_self]
  dsimp only
  rw [Engine.objects_put, if_neg hne, Engine.objects_note, hfresh', if_neg (by simp), Engine.resume,
    Engine.dispatchTasks, hplan]
  dsimp only
  split <;> simp

/-- A conversation in `CONFIRM`, and a call that waits with a message for it. -/
def confirming (message : String) : List Event :=
  [.receive ⟨"henry", 1⟩ "Fix the API bug" none false (world "a"), .resume ⟨"henry", 1⟩ (world "b"),
    .receive ⟨"henry", 2⟩ message none false (world "c")]

theorem not_neverDispatches_of_approves (h : approves message = true) : ¬ NeverDispatches message := by
  intro hnever
  have hcall : (history (coreConfig false) emptyTable 0 (confirming message)).call? ⟨"henry", 2⟩ =
      some ⟨"a0", .persisting message⟩ := rfl
  have hobject : ∃ conv plan, (history (coreConfig false) emptyTable 0 (confirming message)).objects "a0" = some conv ∧
      conv.phase = .confirm ∧ conv.executionPlan = some plan := ⟨_, _, rfl, rfl, rfl⟩
  obtain ⟨conv, plan, hconv, hphase, hplan⟩ := hobject
  obtain ⟨hrouted, hdispatched⟩ := @dispatches_of_approves (coreConfig false) _ _ _ _ _ _ (world "d") (world "e") h
    hcall hconv hphase hplan rfl rfl (by decide)
  have hrun := history_append (coreConfig false) emptyTable 0 (confirming message)
    [.resume ⟨"henry", 2⟩ (world "d"), .resume ⟨"henry", 2⟩ (world "e")]
  rw [Lib.run_cons, Lib.run_cons, Lib.run_nil] at hrun
  rw [← hrun] at hrouted hdispatched
  exact hnever (coreConfig false) emptyTable 0 _ ⟨"henry", 2⟩ "a0" "a0" plan hrouted hdispatched

/-- A message that names a cancellation is never taken for an approval just when none of its
words, as white space parts them, is an approving one. -/
theorem cancel_never_dispatches_iff (message : String) (_ : hasCancelWord message = true) :
    NeverDispatches message ↔ ∀ word ∈ Text.split (normalized message), String.ofList word ∉ approveKeywords := by
  constructor
  · intro hnever word hword hkeyword
    exact not_neverDispatches_of_approves ((approves_iff message).mpr ⟨word, hword, hkeyword⟩) hnever
  · intro hwords
    refine neverDispatches_of_not_approves (Bool.eq_false_iff.mpr fun happroves => ?_)
    obtain ⟨word, hword, hkeyword⟩ := (approves_iff message).mp happroves
    exact hwords word hword hkeyword

theorem cancel_never_dispatches_iff_stop_now :
    hasCancelWord "Stop, kerlek!" = true ∧ NeverDispatches "Stop, kerlek!" :=
  ⟨by decide +kernel, (cancel_never_dispatches_iff "Stop, kerlek!" (by decide +kernel)).mpr (by decide +kernel)⟩

/-- The approving word is found before the cancelling one is looked for. -/
theorem cancel_and_ok_dispatched : hasCancelWord "nem, ok" = true ∧ ¬ NeverDispatches "nem, ok" :=
  ⟨by decide +kernel, not_neverDispatches_of_approves (by decide +kernel)⟩

end Occp.BrainFlow
