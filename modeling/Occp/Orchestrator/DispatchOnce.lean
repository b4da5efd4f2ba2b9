import Mathlib.Data.List.Basic
import Occp.Orchestrator.BrainFlow

/-!
# A plan is dispatched once

Only a call that finds its conversation in `CONFIRM` with an approving message starts a
dispatch. It moves the phase on before it waits, and no phase after that leads back.
-/

namespace Occp.BrainFlow

/-! ## What the notes say of a conversation -/

def dispatchesOf (c : String) (log : List Note) : List (CallId × Plan) :=
  log.filterMap fun
    | .dispatched id c' plan => if c' = c then some (id, plan) else none
    | _ => none

/-- The runs that were started for the conversation, by call and step. -/
def runsOf (c : String) (log : List Note) : List (CallId × Nat) :=
  log.filterMap fun
    | .ran id c' index _ => if c' = c then some (id, index) else none
    | _ => none

/-- The call was routed in `CONFIRM`, by a message that approves. -/
def Confirmed (log : List Note) (id : CallId) (c : String) : Prop :=
  ∃ message, .routed id c .confirm message ∈ log ∧ approves message = true

theorem Confirmed.mono {log log' : List Note} {id : CallId} {c : String} (h : Confirmed log id c)
    (hlog : log ⊆ log') : Confirmed log' id c := by
  obtain ⟨message, hmem, hmessage⟩ := h
  exact ⟨message, hlog hmem, hmessage⟩

/-- A call that has a dispatch before it or is in the middle of one. -/
def Stage.dispatches : Stage → Bool
  | .updatingApproval | .gatheringContext _ | .addingTask .. | .runningTask .. => true
  | _ => false

/-- The call has started this many steps of the plan. -/
def Stage.At (plan : Plan) (k : Nat) : Stage → Prop
  | .gatheringContext p => p = plan ∧ k = 0
  | .addingTask d _ => d.plan = plan ∧ k = d.results.length ∧ k < plan.steps.length
  | .runningTask d _ => d.plan = plan ∧ k = d.results.length + 1 ∧ k ≤ plan.steps.length
  | _ => False

theorem Stage.At.le {plan : Plan} {k : Nat} {stage : Stage} (h : stage.At plan k) : k ≤ plan.steps.length := by
  unfold Stage.At at h
  split at h <;> first | omega | exact h.elim

def Engine.Settled (s : Engine) (c : String) : Prop := ∃ conv, s.objects c = some conv ∧ conv.phase.settled = true

/-- No other call has to do with a dispatch of the conversation. -/
def Engine.OnlyBy (s : Engine) (id : CallId) (c : String) : Prop :=
  ∀ id' stage, s.call? id' = some ⟨c, stage⟩ → stage.dispatches = true → id' = id

def Engine.NoneDispatches (s : Engine) (c : String) : Prop :=
  ∀ id stage, s.call? id = some ⟨c, stage⟩ → stage.dispatches = false

/-- How far the dispatch of a conversation has come. -/
inductive Progress (s : Engine) (c : String) : Prop where
  | idle (hdispatches : dispatchesOf c s.log = []) (hruns : runsOf c s.log = []) (hnone : s.NoneDispatches c)
  | approved (id : CallId) (hdispatches : dispatchesOf c s.log = []) (hruns : runsOf c s.log = [])
    (hcall : s.call? id = some ⟨c, .updatingApproval⟩) (honly : s.OnlyBy id c) (hsettled : s.Settled c)
    (hconfirmed : Confirmed s.log id c)
  | underway (id : CallId) (plan : Plan) (k : Nat) (stage : Stage) (hdispatches : dispatchesOf c s.log = [(id, plan)])
    (hruns : runsOf c s.log = (List.range k).map (id, ·)) (hcall : s.call? id = some ⟨c, stage⟩)
    (hat : stage.At plan k) (honly : s.OnlyBy id c) (hsettled : s.Settled c) (hconfirmed : Confirmed s.log id c)
  | finished (id : CallId) (plan : Plan) (k : Nat) (hdispatches : dispatchesOf c s.log = [(id, plan)])
    (hruns : runsOf c s.log = (List.range k).map (id, ·)) (hk : k ≤ plan.steps.length) (hnone : s.NoneDispatches c)
    (hsettled : s.Settled c) (hconfirmed : Confirmed s.log id c)

/-! ## What leaves the progress as it is -/

/-- Nothing happens that has to do with a dispatch of the conversation. -/
structure Quiet (c : String) (s s' : Engine) : Prop where
  dispatches : dispatchesOf c s'.log = dispatchesOf c s.log
  runs : runsOf c s'.log = runsOf c s.log
  calls : ∀ id stage, stage.dispatches = true → (s'.call? id = some ⟨c, stage⟩ ↔ s.call? id = some ⟨c, stage⟩)
  settled : s.Settled c → s'.Settled c
  log : s.log ⊆ s'.log

variable {c c' : String} {s s' s'' : Engine} {id : CallId}

theorem Quiet.refl (c : String) (s : Engine) : Quiet c s s where
  dispatches := rfl
  runs := rfl
  calls _ _ _ := Iff.rfl
  settled := fun h => h
  log := List.Subset.refl _

theorem Quiet.trans (h : Quiet c s s') (h' : Quiet c s' s'') : Quiet c s s'' where
  dispatches := h'.dispatches.trans h.dispatches
  runs := h'.runs.trans h.runs
  calls id stage hstage := (h'.calls id stage hstage).trans (h.calls id stage hstage)
  settled hs := h'.settled (h.settled hs)
  log := List.Subset.trans h.log h'.log

theorem Quiet.none_dispatches (h : Quiet c s s') (hnone : s.NoneDispatches c) : s'.NoneDispatches c := by
  intro id stage hcall
  by_contra hstage
  rw [Bool.not_eq_false] at hstage
  have hdispatches := hnone id stage ((h.calls id stage hstage).mp hcall)
  rw [hstage] at hdispatches
  cases hdispatches

theorem Quiet.only_by (h : Quiet c s s') (honly : s.OnlyBy id c) : s'.OnlyBy id c :=
  fun id' stage hcall hstage => honly id' stage ((h.calls id' stage hstage).mp hcall) hstage

theorem Stage.At.dispatches {plan : Plan} {k : Nat} {stage : Stage} (h : stage.At plan k) :
    stage.dispatches = true := by
  unfold Stage.At at h
  split at h <;> first | rfl | exact h.elim

theorem Progress.of_quiet (h : Progress s c) (hquiet : Quiet c s s') : Progress s' c := by
  have hd := hquiet.dispatches
  have hr := hquiet.runs
  cases h with
  | idle hdispatches hruns hnone =>
    exact .idle (hd.trans hdispatches) (hr.trans hruns) (hquiet.none_dispatches hnone)
  | approved id hdispatches hruns hcall honly hsettled hconfirmed =>
    exact .approved id (hd.trans hdispatches) (hr.trans hruns) ((hquiet.calls id _ rfl).mpr hcall)
      (hquiet.only_by honly) (hquiet.settled hsettled) (hconfirmed.mono hquiet.log)
  | underway id plan k stage hdispatches hruns hcall hat honly hsettled hconfirmed =>
    exact .underway id plan k stage (hd.trans hdispatches) (hr.trans hruns)
      ((hquiet.calls id stage hat.dispatches).mpr hcall) hat (hquiet.only_by honly) (hquiet.settled hsettled)
      (hconfirmed.mono hquiet.log)
  | finished id plan k hdispatches hruns hk hnone hsettled hconfirmed =>
    exact .finished id plan k (hd.trans hdispatches) (hr.trans hruns) hk (hquiet.none_dispatches hnone)
      (hquiet.settled hsettled) (hconfirmed.mono hquiet.log)

theorem quiet_put {conv : BrainConversation} (h : c' = c → s.Settled c → conv.phase.settled = true) :
    Quiet c s (s.put c' conv) := by
  refine { Quiet.refl c s with settled := fun hs => ?_ }
  by_cases hc : c = c'
  · exact ⟨conv, by simp [hc], h hc.symm hs⟩
  · obtain ⟨old, hold, hphase⟩ := hs
    exact ⟨old, by simp [hc, hold], hphase⟩

theorem quiet_note {n : Note} (hdispatches : dispatchesOf c [n] = []) (hruns : runsOf c [n] = []) :
    Quiet c s (s.note n) where
  dispatches := by
    rw [Engine.log_note, dispatchesOf, List.filterMap_append]
    exact (congrArg _ hdispatches).trans (List.append_nil _)
  runs := by
    rw [Engine.log_note, runsOf, List.filterMap_append]
    exact (congrArg _ hruns).trans (List.append_nil _)
  calls _ _ _ := Iff.rfl
  settled := fun h => h
  log := List.subset_append_left _ _

theorem quiet_await {stage : Stage} (hold : ∀ old, s.call? id = some ⟨c, old⟩ → old.dispatches = false)
    (hnew : c' = c → stage.dispatches = false) : Quiet c s (s.await id c' stage) := by
  refine { Quiet.refl c s with calls := fun id' stage' hstage' => ?_ }
  rw [Engine.call?_await]
  split
  · next hid =>
    subst hid
    constructor
    · intro h
      obtain ⟨rfl, rfl⟩ := Call.mk.inj (Option.some.inj h)
      rw [hnew rfl] at hstage'
      cases hstage'
    · intro h
      rw [hold stage' h] at hstage'
      cases hstage'
  · exact Iff.rfl

theorem quiet_expire (user : String) (now : Int) : Quiet c s (s.expireConversations user now) :=
  { Quiet.refl c s with }

theorem quiet_create (user : String) (now : Int) (hfresh : s.objects c' = none) :
    Quiet c s (s.createConversation user c' now) := by
  refine { Quiet.refl c s with settled := fun ⟨conv, hconv, hphase⟩ => ⟨conv, ?_, hphase⟩ }
  rw [Engine.objects_createConversation, if_neg, hconv]
  rintro rfl
  rw [hfresh] at hconv
  cases hconv

theorem quiet_start (cfg : Config) (user message : String) (now : Int) (hfresh : s.objects c' = none) :
    Quiet c s (s.startConversation cfg user c' message now).1 := by
  refine (quiet_create user now hfresh).trans (quiet_put fun hc hs => ?_)
  subst hc
  obtain ⟨conv, hconv, hphase⟩ := hs
  rw [Engine.objects_createConversation, if_pos rfl] at hconv
  cases hconv
  cases hphase

theorem quiet_getOrCreate (user : String) (conversationId : Option String) (w : World)
    (hfresh : s.objects (w.uuid 0) = none) : Quiet c s (s.getOrCreateConversation user conversationId w).1 := by
  unfold Engine.getOrCreateConversation Engine.getActiveConversations
  split
  · exact .refl c s
  · dsimp only
    split
    · exact quiet_expire user w.now
    · exact (quiet_expire user w.now).trans (quiet_create user w.now hfresh)

theorem quiet_receive {message : String} {conversationId : Option String} {w : World} (hid : s.call? id = none)
    (hfresh : s.objects (w.uuid 0) = none) : Quiet c s (s.receive id message conversationId w) := by
  have hget : Quiet c s ((s.expireConversations id.user w.now).getOrCreateConversation id.user conversationId w).1 :=
    (quiet_expire id.user w.now).trans (quiet_getOrCreate id.user conversationId w hfresh)
  have hcall : ((s.expireConversations id.user w.now).getOrCreateConversation id.user conversationId w).1.call? id =
      none := by
    rw [Engine.call?_getOrCreateConversation, Engine.call?_expireConversations, hid]
  unfold Engine.receive
  dsimp only
  split
  · exact hget
  · next conv hconv =>
    refine hget.trans (((quiet_put fun hc hs => ?_).trans (quiet_note rfl rfl)).trans
      (quiet_await (fun old hold => ?_) fun _ => rfl))
    · subst hc
      obtain ⟨old, hold, hphase⟩ := hs
      rw [hconv] at hold
      cases hold
      exact hphase
    · rw [Engine.call?_note, Engine.call?_put, hcall] at hold
      cases hold

theorem quiet_complete (text : Value → String) (taskId : String) (result : Dict Value) (now : Int) :
    Quiet c s (s.completeTask text c' taskId result now).1 := by
  unfold Engine.completeTask
  split
  · exact .refl c s
  · next conv hconv =>
    have hobject := Engine.objects_of_conversation? hconv
    dsimp only
    split
    · exact quiet_put fun _ _ => rfl
    · refine quiet_put fun hc hs => ?_
      subst hc
      obtain ⟨old, hold, hphase⟩ := hs
      rw [hobject] at hold
      cases hold
      exact hphase

/-! ## What moves it on -/

section

variable {cfg : Config} {conv : BrainConversation} {message : String} {w : World} {stage : Stage} {plan : Plan} {k : Nat}
  {d : Dispatch}

theorem Handled.dispatches_stage {handled : Handled} (h : handled ≠ .updatingApproval) :
    handled.stage.dispatches = false := by
  cases handled with
  | updatingApproval => exact absurd rfl h
  | reply | savingApproval => rfl

theorem Handled.dispatches_named {handled : Handled} (h : handled ≠ .updatingApproval) (c : String) :
    (handled.named c).stage.dispatches = false := by
  cases handled with
  | updatingApproval => exact absurd rfl h
  | reply | savingApproval => rfl

theorem intake_handled (cfg : Config) (s : Engine) (user c message : String) (now : Int) :
    (s.startConversation cfg user c message now).2 ≠ .updatingApproval :=
  BrainConversation.handleIntake_handled _ _

theorem only_by_await (honly : s.OnlyBy id c) : (s.await id c' stage).OnlyBy id c := by
  intro id' stage' hcall hstage
  rw [Engine.call?_await] at hcall
  split at hcall
  · assumption
  · exact honly id' stage' hcall hstage

theorem none_dispatches_await (honly : s.OnlyBy id c) (hstage : stage.dispatches = false) :
    (s.await id c' stage).NoneDispatches c := by
  intro id' stage' hcall
  rw [Engine.call?_await] at hcall
  split at hcall
  · obtain ⟨-, rfl⟩ := Call.mk.inj (Option.some.inj hcall)
    exact hstage
  · next hne =>
    by_contra hdispatches
    rw [Bool.not_eq_false] at hdispatches
    exact hne (honly id' stage' hcall hdispatches)

theorem Engine.NoneDispatches.only_by (h : s.NoneDispatches c) (id : CallId) : s.OnlyBy id c := by
  intro id' stage hcall hstage
  rw [h id' stage hcall] at hstage
  cases hstage

/-- A call that waits to dispatch is the only one, and nothing is dispatched yet. -/
theorem Progress.of_updatingApproval (h : Progress s c) (hcall : s.call? id = some ⟨c, .updatingApproval⟩) :
    dispatchesOf c s.log = [] ∧ runsOf c s.log = [] ∧ s.OnlyBy id c ∧ s.Settled c ∧ Confirmed s.log id c := by
  cases h with
  | idle _ _ hnone => cases hnone id _ hcall
  | approved id' hdispatches hruns _ honly hsettled hconfirmed =>
    obtain rfl := honly id _ hcall rfl
    exact ⟨hdispatches, hruns, honly, hsettled, hconfirmed⟩
  | underway id' plan k stage _ _ hcall' hat honly =>
    obtain rfl := honly id _ hcall rfl
    rw [hcall] at hcall'
    cases hcall'
    exact hat.elim
  | finished _ _ _ _ _ _ hnone => cases hnone id _ hcall

/-- A call in the middle of a dispatch has noted its plan and the steps that it started. -/
theorem Progress.of_dispatching (h : Progress s c) (hcall : s.call? id = some ⟨c, stage⟩)
    (hstage : stage.dispatches = true) (hne : stage ≠ .updatingApproval) :
    ∃ plan k, dispatchesOf c s.log = [(id, plan)] ∧ runsOf c s.log = (List.range k).map (id, ·) ∧ stage.At plan k ∧
      s.OnlyBy id c ∧ s.Settled c ∧ Confirmed s.log id c := by
  cases h with
  | idle _ _ hnone => cases hstage.symm.trans (hnone id _ hcall)
  | approved id' _ _ hcall' honly =>
    obtain rfl := honly id _ hcall hstage
    rw [hcall] at hcall'
    cases hcall'
    exact absurd rfl hne
  | underway id' plan k stage' hdispatches hruns hcall' hat honly hsettled hconfirmed =>
    obtain rfl := honly id _ hcall hstage
    rw [hcall] at hcall'
    cases hcall'
    exact ⟨plan, k, hdispatches, hruns, hat, honly, hsettled, hconfirmed⟩
  | finished _ _ _ _ _ _ hnone => cases hstage.symm.trans (hnone id _ hcall)

theorem progress_approve (h : Progress s c) (hphase : ¬ s.Settled c) {conv : BrainConversation}
    (hconv : conv.phase.settled = true) (hconfirmed : Confirmed s.log id c) :
    Progress ((s.put c conv).await id c .updatingApproval) c := by
  cases h with
  | idle hdispatches hruns hnone =>
    exact .approved id hdispatches hruns (by simp) (only_by_await (hnone.only_by id)) ⟨conv, by simp, hconv⟩ hconfirmed
  | approved _ _ _ _ _ hsettled => exact absurd hsettled hphase
  | underway _ _ _ _ _ _ _ _ _ hsettled => exact absurd hsettled hphase
  | finished _ _ _ _ _ _ _ hsettled => exact absurd hsettled hphase

/-- What keeps a dispatch of the conversation away keeps it away on the next stretch of the call. -/
theorem not_dispatches_of_call (hcall : s.call? id = some ⟨c', stage⟩) (h : c' = c → stage.dispatches = false) :
    ∀ old, s.call? id = some ⟨c, old⟩ → old.dispatches = false := by
  intro old hold
  rw [hcall] at hold
  obtain ⟨rfl, rfl⟩ := Call.mk.inj (Option.some.inj hold)
  exact h rfl

/-- Every message but an approval is quiet. -/
theorem quiet_route (hcall : s.call? id = some ⟨c', .persisting message⟩) (hconv : s.objects c' = some conv)
    (hfresh : s.objects (w.uuid 0) = none) (hmessage : c' = c → ¬ (conv.phase = .confirm ∧ approves message = true)) :
    Quiet c s (s.routeMessage cfg id c' conv message w) := by
  have hnote : Quiet c s (s.note (.routed id c' conv.phase message)) := quiet_note rfl rfl
  have hidle := not_dispatches_of_call (c := c) hcall fun _ => rfl
  have hput {conv' : BrainConversation} {handled : Option Handled}
      (hhandle : conv.handle cfg.route message = some (conv', handled)) (hc : c' = c) (hs : s.Settled c) :
      conv'.phase.settled = true := by
    subst hc
    obtain ⟨old, hold, hphase⟩ := hs
    rw [hconv] at hold
    cases hold
    exact (BrainConversation.handle_spec hhandle).settled hphase
  unfold Engine.routeMessage
  dsimp only
  split
  · next conv' handled hhandle =>
    refine (hnote.trans (quiet_put (hput hhandle))).trans (quiet_await hidle fun hc => ?_)
    have hspec := BrainConversation.handle_spec hhandle
    refine Handled.dispatches_stage fun happrove => ?_
    subst happrove
    cases hspec with
    | planned _ _ hne => exact hne rfl
    | approved hphase happroves => exact hmessage hc ⟨hphase, happroves⟩
  · next conv' hhandle =>
    have hother : w.uuid 0 ≠ c' := by
      rintro heq
      rw [heq, hconv] at hfresh
      cases hfresh
    refine ((hnote.trans (quiet_put (hput hhandle))).trans (quiet_start cfg conv'.userId message w.now ?_)).trans
      (quiet_await hidle fun _ => ?_)
    · simpa [hother] using hfresh
    · exact Handled.dispatches_named (intake_handled _ _ _ _ _ _) _
  · refine (hnote.trans (quiet_start cfg id.user message w.now hfresh)).trans (quiet_await hidle fun _ => ?_)
    exact Handled.dispatches_stage (intake_handled _ _ _ _ _ _)

theorem progress_route (h : Progress s c) (hcall : s.call? id = some ⟨c', .persisting message⟩)
    (hconv : s.objects c' = some conv) (hfresh : s.objects (w.uuid 0) = none) :
    Progress (s.routeMessage cfg id c' conv message w) c := by
  by_cases happrove : c' = c ∧ conv.phase = .confirm ∧ approves message = true
  · obtain ⟨rfl, hphase, hmessage⟩ := happrove
    rw [Engine.routeMessage, BrainConversation.handle_approved hphase hmessage]
    refine progress_approve (h.of_quiet (quiet_note rfl rfl)) ?_ rfl ⟨message, ?_, hmessage⟩
    · rintro ⟨old, hold, hsettled⟩
      rw [Engine.objects_note, hconv] at hold
      cases hold
      rw [hphase] at hsettled
      cases hsettled
    · rw [Engine.log_note, hphase]
      exact List.mem_append_right _ (List.mem_singleton_self _)
  · exact h.of_quiet (quiet_route hcall hconv hfresh fun hc hboth => happrove ⟨hc, hboth⟩)

theorem progress_next (hdispatches : dispatchesOf c s.log = [(id, plan)])
    (hruns : runsOf c s.log = (List.range k).map (id, ·)) (hplan : d.plan = plan) (hk : d.results.length = k)
    (hle : k ≤ plan.steps.length) (honly : s.OnlyBy id c) (hsettled : s.Settled c) (hconfirmed : Confirmed s.log id c) :
    Progress (s.nextStep id c conv d w) c := by
  unfold Engine.nextStep
  split
  · next step hstep =>
    obtain ⟨hlt, -⟩ := List.getElem?_eq_some_iff.mp hstep
    rw [hplan, hk] at hlt
    exact .underway id plan k _ hdispatches hruns (s.call?_await_self ..) ⟨hplan, hk.symm, hlt⟩ (only_by_await honly) hsettled
      hconfirmed
  · exact .finished id plan k hdispatches hruns hle (none_dispatches_await honly rfl) ⟨_, by simp; rfl, rfl⟩ hconfirmed

/-- A call at work on another conversation. -/
theorem quiet_resume_of_ne (hcall : s.call? id = some ⟨c', stage⟩) (hconv : s.objects c' = some conv)
    (hfresh : s.objects (w.uuid 0) = none) (hne : c' ≠ c) : Quiet c s (s.resume cfg id c' conv w stage) := by
  have hidle := not_dispatches_of_call (c := c) hcall fun hc => absurd hc hne
  have hput (s : Engine) (conv : BrainConversation) : Quiet c s (s.put c' conv) := quiet_put fun hc => absurd hc hne
  have hnext (d : Dispatch) : Quiet c s (s.nextStep id c' conv d w) := by
    unfold Engine.nextStep
    split
    · exact quiet_await hidle fun hc => absurd hc hne
    · exact (hput s _).trans (quiet_await hidle fun hc => absurd hc hne)
  cases stage with
  | persisting message => exact quiet_route hcall hconv hfresh fun hc => absurd hc hne
  | savingApproval reply | persistingAgain reply => exact quiet_await hidle fun hc => absurd hc hne
  | returned reply => exact .refl c s
  | gatheringContext plan => exact hnext _
  | runningTask d task => exact hnext _
  | addingTask d task =>
    exact (quiet_note rfl (by simp [runsOf, hne])).trans (quiet_await hidle fun hc => absurd hc hne)
  | updatingApproval =>
    rw [Engine.resume, Engine.dispatchTasks]
    split
    · exact (hput s _).trans (quiet_await hidle fun hc => absurd hc hne)
    · next plan hplan =>
      have hnote : Quiet c s (s.note (.dispatched id c' plan)) := quiet_note (by simp [dispatchesOf, hne]) rfl
      dsimp only
      split
      · exact hnote.trans (quiet_await hidle fun hc => absurd hc hne)
      · exact (hnote.trans (hput _ _)).trans (quiet_await hidle fun hc => absurd hc hne)

theorem progress_dispatch (h : Progress s c) (hcall : s.call? id = some ⟨c, .updatingApproval⟩) :
    Progress (s.dispatchTasks cfg id c conv w) c := by
  obtain ⟨hdispatches, hruns, honly, hsettled, hconfirmed⟩ := h.of_updatingApproval hcall
  unfold Engine.dispatchTasks
  split
  · exact .idle hdispatches hruns (none_dispatches_await honly rfl)
  · next plan hplan =>
    have hnoted : dispatchesOf c (s.note (.dispatched id c plan)).log = [(id, plan)] := by
      rw [Engine.log_note, dispatchesOf, List.filterMap_append]
      exact (congrArg (· ++ _) hdispatches).trans (by simp)
    have hquiet : runsOf c (s.note (.dispatched id c plan)).log = [] := by
      rw [Engine.log_note, runsOf, List.filterMap_append]
      exact (congrArg (· ++ _) hruns).trans (by simp)
    have hconfirmed' := hconfirmed.mono (List.subset_append_left s.log [.dispatched id c plan])
    dsimp only
    split
    · exact .underway id plan 0 _ hnoted hquiet (Engine.call?_await_self ..) ⟨rfl, rfl⟩ (only_by_await honly) hsettled
        hconfirmed'
    · exact .finished id plan 0 hnoted hquiet (Nat.zero_le _) (none_dispatches_await honly rfl) ⟨_, by simp; rfl, rfl⟩
        hconfirmed'

theorem progress_run (h : Progress s c) {task : Task} (hcall : s.call? id = some ⟨c, .addingTask d task⟩) :
    Progress ((s.note (.ran id c d.results.length task)).await id c (.runningTask d task)) c := by
  obtain ⟨plan, k, hdispatches, hruns, ⟨hplan, hk, hlt⟩, honly, hsettled, hconfirmed⟩ :=
    h.of_dispatching hcall rfl (by simp)
  refine .underway id plan (k + 1) _ ?_ ?_ (Engine.call?_await_self ..) ⟨hplan, by rw [hk], hlt⟩
    (only_by_await honly) hsettled (hconfirmed.mono (List.subset_append_left _ _))
  · rw [Engine.log_await, Engine.log_note, dispatchesOf, List.filterMap_append]
    exact (congrArg (· ++ _) hdispatches).trans (by simp)
  · rw [Engine.log_await, Engine.log_note, runsOf, List.filterMap_append, List.range_succ, List.map_append, hk]
    exact (congrArg (· ++ _) hruns).trans (by simp [hk])

theorem progress_resume (h : Progress s c) (hcall : s.call? id = some ⟨c', stage⟩) (hconv : s.objects c' = some conv)
    (hfresh : s.objects (w.uuid 0) = none) : Progress (s.resume cfg id c' conv w stage) c := by
  by_cases hne : c' = c
  · subst hne
    cases stage with
    | persisting message => exact progress_route h hcall hconv hfresh
    | updatingApproval => exact progress_dispatch h hcall
    | addingTask d task => exact progress_run h hcall
    | savingApproval reply | persistingAgain reply =>
      exact h.of_quiet (quiet_await (not_dispatches_of_call hcall fun _ => rfl) fun _ => rfl)
    | returned reply => exact h
    | gatheringContext plan =>
      obtain ⟨plan', k, hdispatches, hruns, ⟨rfl, rfl⟩, honly, hsettled, hconfirmed⟩ :=
        h.of_dispatching hcall rfl (by simp)
      exact progress_next hdispatches hruns rfl rfl (Nat.zero_le _) honly hsettled hconfirmed
    | runningTask d task =>
      obtain ⟨plan, k, hdispatches, hruns, ⟨hplan, hk, hle⟩, honly, hsettled, hconfirmed⟩ :=
        h.of_dispatching hcall rfl (by simp)
      exact progress_next hdispatches hruns hplan (by simp [hk]) hle honly hsettled hconfirmed
  · exact h.of_quiet (quiet_resume_of_ne hcall hconv hfresh hne)

theorem progress_step (h : Progress s c) (e : Event) : Progress (step cfg s e) c := by
  have hstep := step_spec cfg s e
  generalize step cfg s e = s' at hstep
  cases hstep with
  | nothing => exact h
  | received _ _ _ _ hid hfresh => exact h.of_quiet (quiet_receive hid hfresh)
  | resumed _ _ _ _ _ hcall hconv hfresh => exact progress_resume h hcall hconv hfresh
  | completed _ taskId result now => exact h.of_quiet (quiet_complete cfg.text taskId result now)

/-! ## What every run keeps to -/

theorem approves_word (h : approves message = true) :
    ∃ word ∈ Text.split (normalized message), String.ofList word ∈ approveKeywords := by
  have halone : ∀ keyword ∈ approveKeywords, Text.split keyword.toList = [keyword.toList] := by decide +kernel
  simp only [approves, saysOneOf, Bool.or_eq_true, List.any_eq_true, List.contains_iff_mem] at h
  rcases h with h | h
  · exact h
  · have hsplit := halone _ h
    rw [String.toList_ofList] at hsplit
    exact ⟨normalized message, by rw [hsplit]; exact List.mem_singleton_self _, h⟩

/-- Every dispatch comes after a message that confirms it. -/
def Ordered (log : List Note) : Prop :=
  ∀ before after id c plan, log = before ++ .dispatched id c plan :: after → Confirmed before id c

theorem Ordered.note {log : List Note} (h : Ordered log) {n : Note}
    (hn : ∀ id c plan, n = .dispatched id c plan → Confirmed log id c) : Ordered (log ++ [n]) := by
  intro before after id c plan heq
  rcases Lib.split_concat heq with ⟨rfl, rfl⟩ | ⟨rest, rfl⟩
  · exact hn id c plan rfl
  · exact h before rest id c plan rfl

/-- What a step notes, if anything. A dispatch is noted by a call that waits to start it. -/
theorem log_step (cfg : Config) (s : Engine) (e : Event) :
    (step cfg s e).log = s.log ∨ ∃ n, (step cfg s e).log = s.log ++ [n] ∧
      ∀ id c plan, n = .dispatched id c plan → s.call? id = some ⟨c, .updatingApproval⟩ := by
  have hstep := step_spec cfg s e
  generalize step cfg s e = s' at hstep
  cases hstep with
  | nothing => exact .inl rfl
  | received id message conversationId w =>
    have hlog := Engine.log_getOrCreateConversation (s.expireConversations id.user w.now) id.user conversationId w
    unfold Engine.receive
    dsimp only
    split
    · exact .inl hlog
    · exact .inr ⟨_, congrArg (· ++ [_]) hlog, fun _ _ _ h => by cases h⟩
  | completed c taskId result now =>
    refine .inl ?_
    unfold Engine.completeTask
    split
    · rfl
    · dsimp only
      split <;> rfl
  | resumed id w c stage conv hcall =>
    cases stage with
    | persisting message =>
      refine .inr ⟨.routed id c conv.phase message, ?_, by simp⟩
      simp only [Engine.resume, Engine.routeMessage]
      split <;> rfl
    | savingApproval | persistingAgain | returned => exact .inl rfl
    | updatingApproval =>
      simp only [Engine.resume, Engine.dispatchTasks]
      split
      · exact .inl rfl
      · next plan _ =>
        refine .inr ⟨.dispatched id c plan, ?_, ?_⟩
        · split <;> rfl
        · rintro id' c' plan' heq
          obtain ⟨rfl, rfl, -⟩ := Note.dispatched.inj heq
          exact hcall
    | gatheringContext | runningTask => exact .inl (Engine.log_nextStep _ _ _ _ _ _)
    | addingTask d task => exact .inr ⟨.ran id c d.results.length task, rfl, by simp⟩

/-- What holds of dispatches all along. -/
structure Disciplined (s : Engine) : Prop where
  progress : ∀ c, Progress s c
  ordered : Ordered s.log

theorem Disciplined.step (h : Disciplined s) (e : Event) : Disciplined (step cfg s e) where
  progress c := progress_step (h.progress c) e
  ordered := by
    rcases log_step cfg s e with hlog | ⟨n, hlog, hn⟩
    · rw [hlog]
      exact h.ordered
    · rw [hlog]
      refine h.ordered.note fun id c plan heq => ?_
      obtain ⟨-, -, -, -, hconfirmed⟩ := (h.progress c).of_updatingApproval (hn id c plan heq)
      exact hconfirmed

theorem disciplined_load (table : Table) (now : Int) : Disciplined (.loadActiveConversations table now) := by
  have hlog := (Engine.calls_loadActiveConversations table now).2
  refine ⟨fun c => .idle (congrArg (dispatchesOf c) hlog) (congrArg (runsOf c) hlog) fun id stage hcall => ?_, ?_⟩
  · rw [Engine.call?_loadActiveConversations] at hcall
    cases hcall
  · intro before after id c plan heq
    rw [hlog] at heq
    simp at heq

theorem history_disciplined (cfg : Config) (table : Table) (now : Int) (events : List Event) :
    Disciplined (history cfg table now events) :=
  Lib.run_invariant Disciplined (fun _ e h => h.step e) (disciplined_load table now) events

/-- A plan is dispatched at most once, after a message with an approving word that its call
found the conversation in `CONFIRM` for, and no step of it is run twice. -/
theorem plan_dispatched_once (cfg : Config) (table : Table) (now : Int) (events : List Event) (c : String) :
    let log := (history cfg table now events).log
    (dispatchesOf c log).length ≤ 1 ∧
      (∀ before after id plan, log = before ++ .dispatched id c plan :: after →
        ∃ message, .routed id c .confirm message ∈ before ∧
          ∃ word ∈ Text.split (normalized message), String.ofList word ∈ approveKeywords) ∧
      ((runsOf c log).map (·.2)).Nodup ∧
      ∀ run ∈ runsOf c log, ∃ plan, dispatchesOf c log = [(run.1, plan)] ∧ run.2 < plan.steps.length := by
  have hall := history_disciplined cfg table now events
  refine ⟨?_, fun before after id plan heq => ?_, ?_⟩
  · cases hall.progress c with
    | idle hdispatches | approved _ hdispatches | underway _ _ _ _ hdispatches | finished _ _ _ hdispatches =>
      simp [hdispatches]
  · obtain ⟨message, hmem, hmessage⟩ := hall.ordered before after id c plan heq
    exact ⟨message, hmem, approves_word hmessage⟩
  · have hrange (id : CallId) (plan : Plan) (k : Nat) (hk : k ≤ plan.steps.length)
        (hdispatches : dispatchesOf c (history cfg table now events).log = [(id, plan)])
        (hruns : runsOf c (history cfg table now events).log = (List.range k).map (id, ·)) :
        ((runsOf c (history cfg table now events).log).map (·.2)).Nodup ∧
          ∀ run ∈ runsOf c (history cfg table now events).log, ∃ plan,
            dispatchesOf c (history cfg table now events).log = [(run.1, plan)] ∧ run.2 < plan.steps.length := by
      rw [hruns]
      refine ⟨?_, fun run hrun => ?_⟩
      · simpa [Function.comp_def] using List.nodup_range
      obtain ⟨i, hi, rfl⟩ := List.mem_map.mp hrun
      exact ⟨plan, hdispatches, (List.mem_range.mp hi).trans_le hk⟩
    cases hall.progress c with
    | idle _ hruns | approved _ _ hruns => simp [hruns]
    | underway id plan k _ hdispatches hruns _ hat => exact hrange id plan k hat.le hdispatches hruns
    | finished id plan k hdispatches hruns hk => exact hrange id plan k hk hdispatches hruns

end

/-- The phases in which the messages of the call were received. -/
def receivedIn (id : CallId) (log : List Note) : List FlowPhase :=
  log.filterMap fun
    | .received id' _ phase _ => if id' = id then some phase else none
    | _ => none

section

/-- What the router makes of the message below. -/
def coreRoute : RouteDecision where
  primaryAgent := "eng-core"
  supportAgents := []
  riskLevel := "low"
  requiresApproval := false
  estimatedDuration := "30m"
  confidence := 3152519739159347 / 9007199254740992

def coreConfig (pipeline : Bool) : Config where
  route _ := coreRoute
  pipeline := pipeline
  text _ := ""

def emptyTable : Table := ⟨[], List.nodup_nil⟩

def world (uuid : String) : World where
  now := 0
  uuid n := uuid ++ toString n

/-- The second message comes before there is a plan, and approves the one that is made
while it waits. -/
def overtaken : List Event :=
  [.receive ⟨"henry", 1⟩ "Fix the API bug" none false (world "a"), .receive ⟨"henry", 2⟩ "ok" none false (world "b"),
    .resume ⟨"henry", 1⟩ (world "c"), .resume ⟨"henry", 2⟩ (world "d"), .resume ⟨"henry", 2⟩ (world "e")]

/-- A dispatch may answer a message that was received before there was a plan. -/
theorem unseen_plan_dispatched :
    ¬ ∀ (cfg : Config) (table : Table) (now : Int) (events : List Event) (c : String) (id : CallId) (plan : Plan),
      (id, plan) ∈ dispatchesOf c (history cfg table now events).log →
        ∃ message, .received id c .confirm message ∈ (history cfg table now events).log ∧
          ∃ word ∈ Text.split (normalized message), String.ofList word ∈ approveKeywords := by
  intro h
  have hdispatched : ((dispatchesOf "a0" (history (coreConfig true) emptyTable 0 overtaken).log).map (·.1)) =
      [⟨"henry", 2⟩] := by decide +kernel
  have hreceived : receivedIn ⟨"henry", 2⟩ (history (coreConfig true) emptyTable 0 overtaken).log = [.intake] := by
    decide +kernel
  have hmem : (⟨"henry", 2⟩ : CallId) ∈
      (dispatchesOf "a0" (history (coreConfig true) emptyTable 0 overtaken).log).map (·.1) := by
    rw [hdispatched]
    exact List.mem_singleton_self _
  obtain ⟨⟨id, plan⟩, hplan, rfl⟩ := List.mem_map.mp hmem
  obtain ⟨message, hmessage, -⟩ := h _ _ _ _ _ _ plan hplan
  have hconfirm : FlowPhase.confirm ∈ receivedIn ⟨"henry", 2⟩ (history (coreConfig true) emptyTable 0 overtaken).log :=
    List.mem_filterMap.mpr ⟨_, hmessage, if_pos rfl⟩
  rw [hreceived] at hconfirm
  cases List.mem_singleton.mp hconfirm

end

end Occp.BrainFlow
