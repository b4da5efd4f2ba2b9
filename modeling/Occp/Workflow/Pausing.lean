import Occp.Workflow.RunnerSteps

/-!
# What a pause holds back

The wave loop of `start_workflow` waits while the pause flag is set. The one of
`resume_execution` never looks at it, and a call that takes over brings a flag of its own.
-/

namespace Occp.Workflow

open Lib (getElem?_set_cases getElem?_concat_cases)

/-! ## While a pause stands -/

/-- A pause that nothing has taken back, and what was noted before it. -/
def Standing (log before : List Note) : Prop := ∃ since, log = since ++ .paused :: before ∧ .resumed ∉ since

/-- While a pause stands, nodes begin only in waves that were entered before it. -/
def Honoured : List Note → Prop
  | [] => True
  | note :: earlier => Honoured earlier ∧ ∀ runner waveIndex nodeId, note = .begun runner waveIndex nodeId →
    ∀ before, Standing earlier before → .entered runner waveIndex ∈ before

theorem standing_cons {note : Note} {log before : List Note} :
    Standing (note :: log) before ↔ note = .paused ∧ before = log ∨ note ≠ .resumed ∧ Standing log before := by
  constructor
  · rintro ⟨since, hlog, hnot⟩
    cases since with
    | nil =>
      obtain ⟨rfl, rfl⟩ := List.cons.inj hlog
      exact .inl ⟨rfl, rfl⟩
    | cons first since =>
      obtain ⟨rfl, hrest⟩ := List.cons.inj hlog
      rw [List.mem_cons, not_or] at hnot
      exact .inr ⟨Ne.symm hnot.1, since, hrest, hnot.2⟩
  · rintro (⟨rfl, rfl⟩ | ⟨hne, since, rfl, hnot⟩)
    · exact ⟨[], rfl, List.not_mem_nil⟩
    · refine ⟨note :: since, rfl, ?_⟩
      rw [List.mem_cons, not_or]
      exact ⟨Ne.symm hne, hnot⟩

/-- The note says nothing of a pause. -/
def Note.isPlain : Note → Bool
  | .paused => false
  | .resumed => false
  | _ => true

theorem standing_append {notes log before : List Note} (h : ∀ note ∈ notes, note.isPlain = true) :
    Standing (notes ++ log) before ↔ Standing log before := by
  induction notes with
  | nil => exact Iff.rfl
  | cons note notes ih =>
    rw [List.forall_mem_cons] at h
    rw [List.cons_append, standing_cons, ih h.2]
    constructor
    · rintro (⟨rfl, -⟩ | ⟨-, hstanding⟩)
      · cases h.1
      · exact hstanding
    · intro hstanding
      refine .inr ⟨?_, hstanding⟩
      rintro rfl
      cases h.1

/-! ## One call -/

namespace Runner

variable {r r' : Runner}

theorem turn_nil {flags : Option Flags} (h : r.Turn flags [] r') : r'.later = [] ∧ r'.resumed = r.resumed := by
  cases h with
  | complete | fail | stop => exact ⟨rfl, rfl⟩
  | pause f waveIndex wave rest hf hkill hstarted hpause hwaves => cases hwaves
  | enter f waveIndex nodeIds wave skipped rest hf hkill hwaves => simp at hwaves

theorem turn_resumed {flags : Option Flags} {waves : List (List String)} (h : r.Turn flags waves r') :
    r'.resumed = r.resumed := by
  cases h <;> rfl

theorem nextResult_later (waveIndex : Nat) (wave : List String) (waveFailed : Bool)
    (results : List (String × Except PyError Value)) :
    (r.nextResult waveIndex wave waveFailed [] results).later = [] := by
  unfold nextResult
  split
  · rfl
  · split <;> rfl

theorem nextResult_resumed (waveIndex : Nat) (wave : List String) (waveFailed : Bool) (rest : List (List String))
    (results : List (String × Except PyError Value)) :
    (r.nextResult waveIndex wave waveFailed rest results).resumed = r.resumed := by
  unfold nextResult
  split
  · rfl
  · split <;> rfl

theorem advances_resumed {flags : Option Flags} (h : r.Advances flags r') : r'.resumed = r.resumed := by
  cases h with
  | startFails | wakeFails | wakeStops | sleep | wake | giveUp | finish => rfl
  | start inputData waves r' hstage hsort hturn =>
    have hresumed := turn_resumed hturn
    exact hresumed
  | gathered => exact nextResult_resumed _ _ _ _ _
  | recorded => exact nextResult_resumed _ _ _ _ _
  | next waveIndex wave rest r' hstage hturn => exact turn_resumed hturn

/-- A call without a wave to come gets none. -/
theorem advances_later {flags : Option Flags} (h : r.Advances flags r') (hlater : r.later = []) : r'.later = [] := by
  cases h with
  | startFails | wakeFails | wakeStops | giveUp | finish => rfl
  | start inputData waves r' hstage hsort hturn =>
    simp only [later, hstage, hsort] at hlater
    rw [hlater] at hturn
    exact (turn_nil hturn).1
  | sleep f waveIndex wave rest hstage | wake f waveIndex wave rest hstage =>
    simp [later, hstage] at hlater
  | gathered waveIndex nodes rest results hstage =>
    simp only [later, hstage] at hlater
    rw [hlater]
    exact nextResult_later _ _ _ _
  | recorded waveIndex wave left waveFailed rest hstage =>
    simp only [later, hstage] at hlater
    rw [hlater]
    exact nextResult_later _ _ _ _
  | next waveIndex wave rest r' hstage hturn =>
    simp only [later, hstage] at hlater
    rw [hlater] at hturn
    exact (turn_nil hturn).1

/-- The wave loop of `start_workflow` enters no wave while the flag is set. -/
theorem turn_paused {flags : Option Flags} (hflags : ∀ f, flags = some f → f.pause = true)
    {waves : List (List String)} (hwaves : r.resumed = true → waves = []) (h : r.Turn flags waves r')
    (waveIndex : Nat) (nodes : List NodeRun) (rest : List (List String)) : r'.stage ≠ .wave waveIndex nodes rest := by
  cases h with
  | complete | fail | stop => simp [complete, fail, stop]
  | pause => simp [pauseAt]
  | enter f i nodeIds wave skipped rest' hf hkill hsplit hnodeIds hstarted =>
    cases hresumed : r.resumed with
    | true => simp [hwaves hresumed] at hsplit
    | false => exact absurd ((hstarted hresumed).symm.trans (hflags f hf)) (by simp)

theorem nextResult_stage (i : Nat) (wave : List String) (waveFailed : Bool) (later : List (List String))
    (results : List (String × Except PyError Value)) (waveIndex : Nat) (nodes : List NodeRun)
    (rest : List (List String)) :
    (r.nextResult i wave waveFailed later results).stage ≠ .wave waveIndex nodes rest := by
  unfold nextResult
  split
  · simp
  · split <;> simp [stop]

theorem advances_paused {flags : Option Flags} (hflags : ∀ f, flags = some f → f.pause = true)
    (hlater : r.resumed = true → r.later = []) (h : r.Advances flags r') (waveIndex : Nat) (nodes : List NodeRun)
    (rest : List (List String)) : r'.stage ≠ .wave waveIndex nodes rest := by
  cases h with
  | startFails | wakeFails => simp [fail]
  | wakeStops => simp [stop]
  | giveUp => simp [giveUp]
  | finish => simp
  | sleep => simp [pauseAt]
  | wake f i wave rest' hstage hf hkill hpause => exact absurd (hpause.symm.trans (hflags f hf)) (by simp)
  | start inputData waves r' hstage hsort hturn =>
    simp only [later, hstage, hsort] at hlater
    refine turn_paused hflags ?_ hturn _ _ _
    exact hlater
  | gathered => exact nextResult_stage _ _ _ _ _ _ _ _
  | recorded => exact nextResult_stage _ _ _ _ _ _ _ _
  | next i wave rest' r' hstage hturn =>
    simp only [later, hstage] at hlater
    exact turn_paused hflags hlater hturn _ _ _

end Runner

/-! ## All calls -/

namespace MultiAgentOrchestrator

variable {s : MultiAgentOrchestrator} {r r' : Runner} {a : Act}

/-- `pause_workflow` returns without an error. -/
def Pausable (s : MultiAgentOrchestrator) : Prop :=
  ∃ r f, s.runners.getLast? = some r ∧ s.flags = some f ∧
    (r.run.execution.status = .running ∨ r.run.execution.status = .pending)

/-- A pause comes when no resumed call has a wave to come, and no call takes over while it stands. -/
def Pauses (s : MultiAgentOrchestrator) : Event → Prop
  | .pauseWorkflow => s.Pausable → ∀ r ∈ s.runners, r.resumed = true → r.later = []
  | .resume call => s.TakesOver (.resume call) → ∀ before, ¬ Standing s.log before
  | _ => True

theorem isPlain_noteStage (runner : Nat) (r : Runner) : ∀ note ∈ noteStage runner r, note.isPlain = true := by
  unfold noteStage
  split <;> simp [Note.isPlain]

theorem isPlain_notes (runner : Nat) (before : Stage) (r : Runner) (a : Act) :
    ∀ note ∈ notes runner before r a, note.isPlain = true := by
  unfold notes
  split
  · exact isPlain_noteStage runner r
  · split <;> simp [Note.isPlain]
  · simp [Note.isPlain]
  · simp

theorem honoured_noteStage {log : List Note} (h : Honoured log) (runner : Nat) (r : Runner) :
    Honoured (noteStage runner r ++ log) := by
  unfold noteStage
  split
  · exact ⟨h, fun _ _ _ hnote => by cases hnote⟩
  · exact ⟨h, fun _ _ _ hnote => by cases hnote⟩
  · exact h

/-- What holds while a pause stands: whoever looks at the flag finds it set, and whoever does not
has no wave to come. -/
structure Waits (s : MultiAgentOrchestrator) : Prop where
  honoured : Honoured s.log
  registered : ∀ before, Standing s.log before → s.runners ≠ []
  flags : ∀ before, Standing s.log before → ∀ f, s.flags = some f → f.pause = true
  later : ∀ before, Standing s.log before → ∀ r ∈ s.runners, r.resumed = true → r.later = []
  entered : ∀ runner r waveIndex nodes rest, s.runners[runner]? = some r → r.stage = .wave waveIndex nodes rest →
    .entered runner waveIndex ∈ s.log ∧ ∀ before, Standing s.log before → .entered runner waveIndex ∈ before

theorem waits_act (h : s.Waits) {runner : Nat} (hr : s.runners[runner]? = some r) (hact : s.Acts r a r') :
    (s.commit runner r r' a).Waits := by
  have hmem := List.mem_of_getElem? hr
  have hstanding (before : List Note) : Standing (notes runner r.stage r' a ++ s.log) before ↔ Standing s.log before :=
    standing_append (isPlain_notes _ _ _ _)
  have hresumed : r'.resumed = r.resumed := by
    cases hact with
    | store => rfl
    | advance r' hsaved hadvance => exact Runner.advances_resumed hadvance
    | move => rfl
  have hlater (hnil : r.later = []) : r'.later = [] := by
    cases hact with
    | store => exact hnil
    | advance r' hsaved hadvance => exact Runner.advances_later hadvance hnil
    | move a waveIndex before n after rest phase hstage =>
      simp only [Runner.later, hstage] at hnil ⊢
      exact hnil
  -- A wave that is entered is noted, and not while a pause stands.
  have hentered (waveIndex : Nat) (nodes : List NodeRun) (rest : List (List String))
      (hstage : r'.stage = .wave waveIndex nodes rest) : .entered runner waveIndex ∈ notes runner r.stage r' a ++ s.log ∧
      ∀ before, Standing s.log before → .entered runner waveIndex ∈ before := by
    cases hact with
    | store => exact h.entered runner r waveIndex nodes rest hr hstage
    | advance r' hsaved hadvance =>
      refine ⟨List.mem_append_left _ (by simp [notes, noteStage, hstage]), fun before hbefore => ?_⟩
      exact absurd hstage (Runner.advances_paused (h.flags before hbefore) (h.later before hbefore r hmem) hadvance _ _ _)
    | move a i before n after rest' phase hwave =>
      obtain ⟨rfl, -, -⟩ := Stage.wave.inj hstage
      obtain ⟨hlog, hbefore⟩ := h.entered runner r i _ _ hr hwave
      exact ⟨List.mem_append_right _ hlog, hbefore⟩
  refine ⟨?_, fun before hbefore => ?_, fun before hbefore f hf => ?_, fun before hbefore r₀ hr₀ hres => ?_,
    fun other r₀ waveIndex nodes rest hr₀ hstage => ?_⟩
  · cases hact with
    | store => exact h.honoured
    | advance r' hsaved hadvance => exact honoured_noteStage h.honoured runner r'
    | move a i before n after rest' phase hwave hmoves =>
      cases hmoves with
      | dispatch | reject => exact h.honoured
      | begin number hphase =>
        change Honoured (notes runner r.stage _ (.begin n.node.nodeId) ++ s.log)
        rw [hwave]
        refine ⟨h.honoured, fun runner' waveIndex nodeId hnote before' hbefore => ?_⟩
        obtain ⟨rfl, rfl, rfl⟩ := Note.begun.inj hnote
        exact (h.entered _ r _ _ _ hr hwave).2 before' hbefore
      | finish => exact ⟨h.honoured, fun _ _ _ hnote => by cases hnote⟩
  · have hne := h.registered before ((hstanding before).mp hbefore)
    simpa [commit] using hne
  · refine h.flags before ((hstanding before).mp hbefore) f ?_
    change s.flagsAfter r' a = some f at hf
    unfold flagsAfter at hf
    split at hf
    · split at hf
      · cases hf
      · exact hf
    · exact hf
  · have hwas := (hstanding before).mp hbefore
    rcases List.mem_or_eq_of_mem_set hr₀ with hr₀ | rfl
    · exact h.later before hwas r₀ hr₀ hres
    · exact hlater (h.later before hwas r hmem (hresumed ▸ hres))
  · rcases getElem?_set_cases hr₀ with ⟨rfl, rfl⟩ | ⟨-, hr₀⟩
    · obtain ⟨hlog, hbefore⟩ := hentered waveIndex nodes rest hstage
      exact ⟨hlog, fun before hstanding' => hbefore before ((hstanding before).mp hstanding')⟩
    · obtain ⟨hlog, hbefore⟩ := h.entered other r₀ waveIndex nodes rest hr₀ hstage
      exact ⟨List.mem_append_right _ hlog, fun before hstanding' => hbefore before ((hstanding before).mp hstanding')⟩

/-- Nothing else that the pause looks at has changed. -/
theorem Waits.of_same (h : s.Waits) {s' : MultiAgentOrchestrator} (hrunners : s'.runners = s.runners)
    (hflags : s'.flags = s.flags) (hlog : s'.log = s.log) : s'.Waits := by
  obtain ⟨hhonoured, hregistered, hset, hlater, hentered⟩ := h
  rw [← hlog] at hhonoured hregistered hset hlater hentered
  rw [← hrunners] at hregistered hlater hentered
  rw [← hflags] at hset
  exact ⟨hhonoured, hregistered, hset, hlater, hentered⟩

/-- Without a pause that stands, a call registers itself and may enter its first wave. -/
theorem waits_register (h : s.Waits) (hnone : ∀ before, ¬ Standing s.log before) (notes : List Note)
    (hnotes : notes = noteStage s.runners.length r ∨ notes = [] ∧ ∀ waveIndex nodes rest,
      r.stage ≠ .wave waveIndex nodes rest) : { s.register r with log := notes ++ s.log }.Waits := by
  have hplain : ∀ note ∈ notes, note.isPlain = true := by
    rcases hnotes with rfl | ⟨rfl, -⟩
    · exact isPlain_noteStage _ _
    · simp
  have hstanding (before : List Note) (hbefore : Standing (notes ++ s.log) before) : False :=
    hnone before ((standing_append hplain).mp hbefore)
  refine ⟨?_, fun before hbefore => (hstanding before hbefore).elim, fun before hbefore => (hstanding before hbefore).elim,
    fun before hbefore => (hstanding before hbefore).elim, fun other r₀ waveIndex nodes rest hr₀ hstage =>
    ⟨?_, fun before hbefore => (hstanding before hbefore).elim⟩⟩
  · rcases hnotes with rfl | ⟨rfl, -⟩
    · exact honoured_noteStage h.honoured _ _
    · exact h.honoured
  · rcases getElem?_concat_cases hr₀ with ⟨rfl, rfl⟩ | hr₀
    · rcases hnotes with rfl | ⟨rfl, hnot⟩
      · exact List.mem_append_left _ (by simp [noteStage, hstage])
      · exact absurd hstage (hnot _ _ _)
    · exact List.mem_append_right _ (h.entered other r₀ waveIndex nodes rest hr₀ hstage).1

/-- A step keeps the calls waiting. -/
theorem waits_step (h : s.Waits) (e : Event) (hok : s.Pauses e) : (s.step e).Waits := by
  have hsteps := s.step_cases e
  generalize s.step e = s' at hsteps ⊢
  cases hsteps with
  | stay => exact h
  | start d inputData r hrunners hvalid hresumed hdefinition hstage =>
    exact waits_register h (fun before hbefore => h.registered before hbefore hrunners) []
      (.inr ⟨rfl, by simp [hstage]⟩)
  | read => exact h.of_same rfl rfl rfl
  | refuse => exact h.of_same rfl rfl rfl
  | strand call r htakes hstage =>
    have hcalls : { s with calls := s.calls.eraseIdx call }.Waits := h.of_same rfl rfl rfl
    exact waits_register hcalls (hok htakes) [] (.inr ⟨rfl, by simp [hstage]⟩)
  | resume call row waves r r' htakes =>
    have hcalls : { s with calls := s.calls.eraseIdx call }.Waits := h.of_same rfl rfl rfl
    exact waits_register hcalls (hok htakes) _ (.inl rfl)
  | act runner a r r' hr hact => exact waits_act h hr hact
  | slots => exact h.of_same rfl rfl rfl
  | pause r f hr hf hstatus =>
    refine ⟨⟨h.honoured, fun _ _ _ hnote => by cases hnote⟩, fun _ _ hnil => ?_, fun _ _ f' hf' => ?_, fun _ _ r₀ hr₀ hres => ?_,
      fun runner r₀ waveIndex nodes rest hr₀ hstage => ?_⟩
    · change s.runners = [] at hnil
      rw [hnil] at hr
      cases hr
    · obtain rfl := Option.some.inj hf'
      rfl
    · exact hok ⟨r, f, hr, hf, hstatus⟩ r₀ hr₀ hres
    · obtain ⟨hlog, hbefore⟩ := h.entered runner r₀ waveIndex nodes rest hr₀ hstage
      refine ⟨List.mem_cons_of_mem _ hlog, fun before hstanding => ?_⟩
      rcases standing_cons.mp hstanding with ⟨-, rfl⟩ | ⟨-, hstanding⟩
      · exact hlog
      · exact hbefore before hstanding
  | unpause r f hr =>
    have hnone (before : List Note) : ¬ Standing (.resumed :: s.log) before := by
      intro hstanding
      rcases standing_cons.mp hstanding with ⟨hnote, -⟩ | ⟨hne, -⟩
      · cases hnote
      · exact hne rfl
    rw [List.getLast?_eq_getElem?] at hr
    refine ⟨⟨h.honoured, fun _ _ _ hnote => by cases hnote⟩, fun before hbefore => absurd hbefore (hnone before),
      fun before hbefore => absurd hbefore (hnone before), fun before hbefore => absurd hbefore (hnone before),
      fun runner r₀ waveIndex nodes rest hr₀ hstage => ⟨?_, fun before hbefore => absurd hbefore (hnone before)⟩⟩
    rcases getElem?_set_cases hr₀ with ⟨rfl, rfl⟩ | ⟨-, hr₀⟩
    · exact List.mem_cons_of_mem _ (h.entered _ r waveIndex nodes rest hr hstage).1
    · exact List.mem_cons_of_mem _ (h.entered runner r₀ waveIndex nodes rest hr₀ hstage).1
  | kill r f hr hf =>
    have hstanding (before : List Note) : Standing (.killed :: s.log) before ↔ Standing s.log before :=
      @standing_append [.killed] s.log before (by simp [Note.isPlain])
    refine ⟨⟨h.honoured, fun _ _ _ hnote => by cases hnote⟩, fun before hbefore => ?_, fun before hbefore f' hf' => ?_,
      fun before hbefore => ?_, fun runner r₀ waveIndex nodes rest hr₀ hstage => ?_⟩
    · exact h.registered before ((hstanding before).mp hbefore)
    · obtain rfl := Option.some.inj hf'
      exact h.flags before ((hstanding before).mp hbefore) f hf
    · exact h.later before ((hstanding before).mp hbefore)
    · obtain ⟨hlog, hbefore⟩ := h.entered runner r₀ waveIndex nodes rest hr₀ hstage
      exact ⟨List.mem_cons_of_mem _ hlog, fun before hb => hbefore before ((hstanding before).mp hb)⟩

/-- **While a pause stands no later wave begins, in a run whose pauses meet no resumed call with
waves to come and are not overtaken by one.** -/
theorem pause_is_honoured {events : List Event} (hs : s.Initial) (hok : Lib.Admitted step Pauses s events) :
    Honoured (Lib.run step s events).log := by
  have hnone (before : List Note) : ¬ Standing s.log before := by
    rintro ⟨since, hlog, -⟩
    simp [hs.log] at hlog
  have hwaits : s.Waits := by
    refine ⟨by rw [hs.log]; trivial, fun before hbefore => absurd hbefore (hnone before),
      fun before hbefore => absurd hbefore (hnone before), fun before hbefore => absurd hbefore (hnone before),
      fun runner r waveIndex nodes rest hr => ?_⟩
    simp [hs.runners] at hr
  exact (hok.invariant Waits hwaits fun _ e h hok => waits_step h e hok).honoured

/-! ## A pause of each kind of call -/

/-- A started call waits at its first wave, and goes on when it is resumed. -/
theorem started_call_waits :
    let events := [.start singleNode [], .pauseWorkflow, .act 0 .store, .act 0 .advance, .act 0 .advance,
      .resumeWorkflow, .act 0 .advance, .act 0 (.dispatch "a"), .act 0 (.begin "a")]
    (Lib.run step (orchestrator none 1) events).log = [.begun 0 0 "a", .entered 0 0, .resumed, .paused] ∧
      Honoured (Lib.run step (orchestrator none 1) events).log := by
  intro events
  have hstarted : ((step (orchestrator none 1) (.start singleNode [])).runners.all fun r => !r.resumed) = true := by
    decide +kernel
  refine ⟨by decide +kernel, @pause_is_honoured (orchestrator none 1) events ⟨rfl, rfl, rfl⟩ ?_⟩
  refine ⟨trivial, fun _ r hr hresumed => ?_, trivial, trivial, trivial, trivial, trivial, trivial, trivial, trivial⟩
  have hnot := List.all_eq_true.mp hstarted r hr
  simp [hresumed] at hnot

/-- A resumed call goes on to its next wave. -/
theorem resumed_call_runs_on : (orchestrator (some (interruptedRow twoWaves)) 1).Initial ∧
    ¬ Honoured (Lib.run step (orchestrator (some (interruptedRow twoWaves)) 1)
      [.read none, .resume 0, .act 0 (.dispatch "a"), .act 0 (.begin "a"), .pauseWorkflow,
        .act 0 (.finish "a" (.ok .none)), .act 0 .advance, .act 0 .store, .act 0 .advance, .act 0 .store,
        .act 0 .advance, .act 0 (.dispatch "b"), .act 0 (.begin "b")]).log := by
  refine ⟨⟨rfl, rfl, rfl⟩, ?_⟩
  have hlog : (Lib.run step (orchestrator (some (interruptedRow twoWaves)) 1)
      [.read none, .resume 0, .act 0 (.dispatch "a"), .act 0 (.begin "a"), .pauseWorkflow,
        .act 0 (.finish "a" (.ok .none)), .act 0 .advance, .act 0 .store, .act 0 .advance, .act 0 .store,
        .act 0 .advance, .act 0 (.dispatch "b"), .act 0 (.begin "b")]).log =
      [.begun 0 1 "b", .entered 0 1, .ended 0 "a" true, .paused, .begun 0 0 "a", .entered 0 0] := by decide +kernel
  rw [hlog]
  intro h
  have hbefore := h.2 0 1 "b" rfl [.begun 0 0 "a", .entered 0 0] ⟨[.entered 0 1, .ended 0 "a" true], rfl, by decide⟩
  exact absurd hbefore (by decide)

end MultiAgentOrchestrator

end Occp.Workflow
