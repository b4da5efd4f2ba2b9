import Occp.Workflow.RunnerSteps

/-!
# What a kill stops

The kill flag is read before each attempt and at the head of each wave, and nowhere else. A
kill stops the execution when one of these is still to come, and no node is past its own.
-/

namespace Occp.Workflow

open Lib (getElem?_set_cases)

/-! ## After a kill -/

/-- Once killed, no node begins, and no call ends with another status. -/
def Halted : List Note → Prop
  | [] => True
  | note :: earlier => Halted earlier ∧ (.killed ∈ earlier →
    (∀ runner waveIndex nodeId, note ≠ .begun runner waveIndex nodeId) ∧
      ∀ runner status, note = .finished runner status → status = .killed)

theorem halted_of_not_killed {log : List Note} (h : .killed ∉ log) : Halted log := by
  induction log with
  | nil => trivial
  | cons note log ih =>
    rw [List.mem_cons, not_or] at h
    exact ⟨ih h.2, fun hmem => absurd hmem h.2⟩

/-- The result is the kill itself. -/
def isKill : Except PyError Value → Bool
  | .error (.workflowKilled _) => true
  | _ => false

/-- The result is a failure that is recorded. -/
def isFailure : Except PyError Value → Bool
  | .ok _ => false
  | .error (.workflowKilled _) => false
  | .error _ => true

namespace NodeRun

/-- The task has a kill check to come, or was stopped by one. -/
def canStop (n : NodeRun) : Bool :=
  match n.phase with
  | .waiting => true
  | .queued _ => false
  | .running number => number < n.node.retryCount
  | .done result => isKill result

/-- The task failed for good. -/
def failed (n : NodeRun) : Bool :=
  match n.phase with
  | .done result => isFailure result
  | _ => false

def isQueued (n : NodeRun) : Bool :=
  match n.phase with
  | .queued _ => true
  | _ => false

/-- With this result of its attempt, the task comes to a kill check. -/
def checksOn (n : NodeRun) (result : Except PyError Value) : Bool :=
  isKill result || isFailure result && n.canStop

/-- After a kill no attempt is repeated. -/
theorem settle_killed (executionId : String) (n : NodeRun) {number : Nat} (result : Except PyError Value)
    (hphase : n.phase = .running number) : ∃ final, n.settle true executionId number result = .done final ∧
      isKill final = n.checksOn result ∧ (isFailure result = false → isFailure final = false) := by
  cases result with
  | ok output => exact ⟨.ok output, rfl, rfl, fun _ => rfl⟩
  | error exc =>
    by_cases hretry : number < n.node.retryCount
    · cases exc with
      | workflowKilled id => exact ⟨_, rfl, rfl, fun _ => rfl⟩
      | _ => exact ⟨.error (.workflowKilled executionId), by simp [settle, attempt, hretry],
          by simp [checksOn, canStop, hphase, hretry, isKill, isFailure], fun _ => rfl⟩
    · cases exc with
      | workflowKilled id => exact ⟨_, rfl, rfl, fun _ => rfl⟩
      | _ =>
        refine ⟨_, if_neg hretry, ?_, fun h => absurd h (by simp [isFailure])⟩
        simp [checksOn, canStop, hphase, hretry, isKill, isFailure]

end NodeRun

namespace Runner

/-- A kill check is still to come. -/
def CanStop (r : Runner) : Prop :=
  match r.stage with
  | .starting _ => ∃ wave rest, r.definition.topologicalSort = .ok (wave :: rest)
  | .paused _ _ _ => True
  | .wave _ nodes rest => (∃ n ∈ nodes, n.canStop = true) ∨ rest ≠ [] ∧ ∀ n ∈ nodes, n.failed = false
  | .results _ _ left waveFailed rest =>
    (∃ e ∈ left, isKill e.2 = true) ∨ rest ≠ [] ∧ waveFailed = false ∧ ∀ e ∈ left, isFailure e.2 = false
  | .checkpointed _ _ waveFailed rest => waveFailed = false ∧ rest ≠ []
  | .ending => False
  | .ended => False

/-- A kill check is still to come when the node of this id comes back with this. -/
def CanStopAfter (r : Runner) (nodeId : String) (result : Except PyError Value) : Prop :=
  match r.stage with
  | .wave _ nodes rest =>
    (∀ n ∈ nodes, n.node.nodeId = nodeId → n.checksOn result = true) ∨
    (∃ n ∈ nodes, n.node.nodeId ≠ nodeId ∧ n.canStop = true) ∨
    isFailure result = false ∧ rest ≠ [] ∧ ∀ n ∈ nodes, n.failed = false
  | _ => True

end Runner

namespace MultiAgentOrchestrator

/-- `kill_workflow` returns without an error. -/
def Killable (s : MultiAgentOrchestrator) : Prop :=
  ∃ r f, s.runners.getLast? = some r ∧ s.flags = some f ∧ r.run.execution.status ≠ .completed ∧
    r.run.execution.status ≠ .killed

/-- No other call of the execution is at work. -/
def Alone (s : MultiAgentOrchestrator) (runner : Nat) : Prop :=
  ∀ other r, s.runners[other]? = some r → r.stage ≠ .ended → other = runner

/-- A kill comes while the one call that is at work has a check to come, and no node of it is past
its check and behind the semaphore of its agent. From then on no call takes over, and no node
comes back so that the last check is passed over. -/
def InTime (s : MultiAgentOrchestrator) : Event → Prop
  | .killWorkflow => s.Killable → ∀ runner r, s.runners[runner]? = some r → r.stage ≠ .ended →
      s.Alone runner ∧ (∀ n ∈ r.nodes, n.isQueued = false) ∧ r.CanStop
  | .act runner (.finish nodeId result) => .killed ∈ s.log →
      ∀ r, s.runners[runner]? = some r → r.CanStopAfter nodeId result
  | .resume call => s.TakesOver (.resume call) → .killed ∉ s.log
  | _ => True

end MultiAgentOrchestrator

/-! ## One call -/

namespace Runner

variable {r r' : Runner}

/-- The call is on its way to a kill, or has come to it. -/
inductive Stopping (flags : Option Flags) (r : Runner) : Prop
  | check (f : Flags) (h : flags = some f) (hkill : f.kill = true) (hqueued : ∀ n ∈ r.nodes, n.isQueued = false)
    (hstop : r.CanStop)
  | stopped (hstage : r.stage = .ending) (hstatus : r.run.execution.status = .killed)

theorem stopping_stop (flags : Option Flags) (r : Runner) : r.stop.Stopping flags := .stopped rfl rfl

/-- With the flag set, the head of the loop stops before a wave. -/
theorem turn_stops {f : Flags} {waves : List (List String)} (hkill : f.kill = true) (hwaves : waves ≠ [])
    (hturn : r.Turn (some f) waves r') : r' = r.stop := by
  cases hturn with
  | complete h =>
    obtain ⟨-, f', hf, hnot⟩ := h.resolve_left hwaves
    obtain rfl := Option.some.inj hf
    exact absurd (hkill.symm.trans hnot) (by simp)
  | fail h => cases h
  | stop => rfl
  | pause f' waveIndex wave rest hf hnot =>
    obtain rfl := Option.some.inj hf
    exact absurd (hkill.symm.trans hnot) (by simp)
  | enter f' waveIndex nodeIds wave skipped rest hf hnot =>
    obtain rfl := Option.some.inj hf
    exact absurd (hkill.symm.trans hnot) (by simp)

theorem entryOf_eq_ok {result : Except PyError Value} {entry : NodeResult} (h : entryOf result = .ok entry) :
    isKill result = false ∧ entry.output?.isNone = isFailure result := by
  unfold entryOf at h
  split at h
  · obtain rfl := Except.ok.inj h
    exact ⟨rfl, rfl⟩
  · cases h
  · next exc hnot =>
    obtain rfl := Except.ok.inj h
    cases exc with
    | workflowKilled executionId => exact absurd rfl (hnot executionId)
    | _ => exact ⟨rfl, rfl⟩

/-- While the results of a wave are recorded, a kill among them stops the call, and so does the
next wave when none of them is a failure. -/
theorem stopping_nextResult {f : Flags} (hkill : f.kill = true) {waveIndex : Nat} {wave : List String}
    {waveFailed : Bool} {rest : List (List String)} {results : List (String × Except PyError Value)}
    (h : (∃ e ∈ results, isKill e.2 = true) ∨
      rest ≠ [] ∧ waveFailed = false ∧ ∀ e ∈ results, isFailure e.2 = false) :
    (r.nextResult waveIndex wave waveFailed rest results).Stopping (some f) := by
  unfold nextResult
  split
  · refine .check f rfl hkill (by simp [nodes]) ?_
    rcases h with ⟨e, hmem, -⟩ | ⟨hrest, hfailed, -⟩
    · simp at hmem
    · exact ⟨hfailed, hrest⟩
  · next nodeId result left =>
    split
    · exact stopping_stop _ r
    · next entry hentry =>
      obtain ⟨hnot, hnone⟩ := entryOf_eq_ok hentry
      refine .check f rfl hkill (by simp [nodes]) ?_
      rcases h with ⟨e, hmem, he⟩ | ⟨hrest, hfailed, hall⟩
      · rcases List.mem_cons.mp hmem with rfl | hmem
        · exact absurd (hnot.symm.trans he) (by simp)
        · exact .inl ⟨e, hmem, he⟩
      · rw [List.forall_mem_cons] at hall
        exact .inr ⟨hrest, by rw [hfailed, hnone, hall.1]; rfl, hall.2⟩

theorem mem_of_mapM {nodes : List NodeRun} {results : List (String × Except PyError Value)}
    (h : nodes.mapM NodeRun.result? = some results) :
    (∀ n ∈ nodes, ∃ e ∈ results, n.result? = some e) ∧ ∀ e ∈ results, ∃ n ∈ nodes, n.result? = some e := by
  induction nodes generalizing results with
  | nil =>
    obtain rfl : results = [] := by simpa using h.symm
    simp
  | cons n nodes ih =>
    rw [List.mapM_cons] at h
    obtain ⟨e, he, hrest⟩ := Option.bind_eq_some_iff.mp h
    obtain ⟨left, hleft, hpure⟩ := Option.bind_eq_some_iff.mp hrest
    obtain rfl : e :: left = results := by simpa using hpure
    obtain ⟨hto, hfrom⟩ := ih hleft
    refine ⟨fun m hm => ?_, fun e' he' => ?_⟩
    · rcases List.mem_cons.mp hm with rfl | hm
      · exact ⟨e, List.mem_cons_self, he⟩
      · obtain ⟨e', he', hm'⟩ := hto m hm
        exact ⟨e', List.mem_cons_of_mem _ he', hm'⟩
    · rcases List.mem_cons.mp he' with rfl | he'
      · exact ⟨n, List.mem_cons_self, he⟩
      · obtain ⟨m, hm, hm'⟩ := hfrom e' he'
        exact ⟨m, List.mem_cons_of_mem _ hm, hm'⟩

theorem result?_eq_some {n : NodeRun} {e : String × Except PyError Value} (h : n.result? = some e) :
    n.canStop = isKill e.2 ∧ n.failed = isFailure e.2 := by
  unfold NodeRun.result? at h
  split at h
  · next result hphase =>
    obtain rfl := Option.some.inj h
    simp [NodeRun.canStop, NodeRun.failed, hphase]
  · cases h

/-- From one await to the next, a call that is being stopped stays on its way. -/
theorem Stopping.advance {f : Flags} (hkill : f.kill = true) (hstop : r.CanStop)
    (h : r.Advances (some f) r') : r'.Stopping (some f) := by
  cases h with
  | startFails inputData exc hstage hsort =>
    simp [CanStop, hstage, hsort] at hstop
  | start inputData waves r' hstage hsort hturn =>
    simp only [CanStop, hstage, hsort, Except.ok.injEq] at hstop
    obtain ⟨wave, rest, rfl⟩ := hstop
    rw [turn_stops hkill (List.cons_ne_nil _ _) hturn]
    exact stopping_stop _ _
  | wakeFails waveIndex wave rest hstage h => cases h
  | wakeStops => exact stopping_stop _ r
  | sleep f' waveIndex wave rest hstage hf hnot =>
    obtain rfl := Option.some.inj hf
    exact absurd (hkill.symm.trans hnot) (by simp)
  | wake f' waveIndex wave rest hstage hf hnot =>
    obtain rfl := Option.some.inj hf
    exact absurd (hkill.symm.trans hnot) (by simp)
  | gathered waveIndex nodes rest results hstage hresults =>
    obtain ⟨hto, hfrom⟩ := mem_of_mapM hresults
    simp only [CanStop, hstage] at hstop
    refine stopping_nextResult hkill (hstop.imp ?_ ?_)
    · rintro ⟨n, hn, hcan⟩
      obtain ⟨e, he, hresult⟩ := hto n hn
      exact ⟨e, he, (result?_eq_some hresult).1 ▸ hcan⟩
    · rintro ⟨hrest, hall⟩
      refine ⟨hrest, rfl, fun e he => ?_⟩
      obtain ⟨n, hn, hresult⟩ := hfrom e he
      exact (result?_eq_some hresult).2 ▸ hall n hn
  | recorded waveIndex wave left waveFailed rest hstage =>
    simp only [CanStop, hstage] at hstop
    exact stopping_nextResult hkill hstop
  | giveUp waveIndex wave rest hstage => simp [CanStop, hstage] at hstop
  | next waveIndex wave rest r' hstage hturn =>
    simp only [CanStop, hstage] at hstop
    rw [turn_stops hkill hstop.2 hturn]
    exact stopping_stop _ r
  | finish hstage => simp [CanStop, hstage] at hstop

theorem canStop_of_mem {waveIndex : Nat} {nodes : List NodeRun} {rest : List (List String)} {n : NodeRun}
    (hn : n ∈ nodes) (hcan : n.canStop = true) : CanStop { r with stage := .wave waveIndex nodes rest } :=
  .inl ⟨n, hn, hcan⟩

/-- So it does when the task of a node moves on. -/
theorem Stopping.move {f : Flags} (hkill : f.kill = true) {waveIndex : Nat} {before after : List NodeRun}
    {n : NodeRun} {rest : List (List String)} {phase : Phase} {executionId : String} {a : Act}
    (hstage : r.stage = .wave waveIndex (before ++ n :: after) rest)
    (hqueued : ∀ n ∈ r.nodes, n.isQueued = false) (hmoves : n.Moves true executionId a phase)
    (hfinish : ∀ nodeId result, a = .finish nodeId result → r.CanStopAfter nodeId result) :
    Stopping (some f) { r with stage := .wave waveIndex (before ++ { n with phase } :: after) rest } := by
  simp only [nodes, hstage] at hqueued
  have hn : n ∈ before ++ n :: after := List.mem_append_right _ List.mem_cons_self
  have hmoved : ({ n with phase } : NodeRun) ∈ before ++ { n with phase } :: after :=
    List.mem_append_right _ List.mem_cons_self
  have hmem {m : NodeRun} (hm : m ∈ before ++ { n with phase } :: after) :
      m ∈ before ++ n :: after ∨ m = { n with phase } := by
    rcases List.mem_append.mp hm with hm | hm
    · exact .inl (List.mem_append_left _ hm)
    · exact (List.mem_cons.mp hm).symm.imp_left fun hm => List.mem_append_right _ (List.mem_cons_of_mem _ hm)
  have hother {m : NodeRun} (hm : m ∈ before ++ n :: after) (hne : m.node.nodeId ≠ n.node.nodeId) :
      m ∈ before ++ { n with phase } :: after := by
    rcases List.mem_append.mp hm with hm | hm
    · exact List.mem_append_left _ hm
    · rcases List.mem_cons.mp hm with rfl | hm
      · exact absurd rfl hne
      · exact List.mem_append_right _ (List.mem_cons_of_mem _ hm)
  have hcheck (hphase : ({ n with phase } : NodeRun).isQueued = false)
      (hstop : CanStop { r with stage := .wave waveIndex (before ++ { n with phase } :: after) rest }) :
      Stopping (some f) { r with stage := .wave waveIndex (before ++ { n with phase } :: after) rest } := by
    refine .check f rfl hkill (fun m hm => ?_) hstop
    rcases hmem hm with hm | rfl
    · exact hqueued m hm
    · exact hphase
  cases hmoves with
  | dispatch hphase => exact hcheck rfl (canStop_of_mem hmoved rfl)
  | begin number hphase =>
    have hnot := hqueued n hn
    simp [NodeRun.isQueued, hphase] at hnot
  | reject number exc hphase =>
    have hnot := hqueued n hn
    simp [NodeRun.isQueued, hphase] at hnot
  | finish number result hphase =>
    have hafter := hfinish _ _ rfl
    simp only [CanStopAfter, hstage] at hafter
    obtain ⟨final, hfinal, hkilled, hfailed⟩ := NodeRun.settle_killed executionId n result hphase
    rw [hfinal] at hcheck hmoved hother ⊢
    -- The node itself comes to a check, or another one does, or the next wave.
    rcases hafter with hchecks | ⟨m, hm, hne, hcan⟩ | ⟨hnot, hrest, hall⟩
    · refine hcheck rfl (canStop_of_mem hmoved ?_)
      exact hkilled.trans (hchecks n hn rfl)
    · exact hcheck rfl (canStop_of_mem (hother hm hne) hcan)
    · refine hcheck rfl (.inr ⟨hrest, fun m hm => ?_⟩)
      rw [hfinal] at hmem
      rcases hmem hm with hm | rfl
      · exact hall m hm
      · exact hfailed hnot

theorem Stopping.live {flags : Option Flags} (h : r.Stopping flags) : r.stage ≠ .ended := by
  cases h with
  | check f hf hkill hqueued hstop =>
    intro hended
    simp [CanStop, hended] at hstop
  | stopped hstage =>
    rw [hstage]
    simp

theorem Stopping.of_kill {f f' : Flags} (h : r.Stopping (some f)) (hkill : f'.kill = f.kill) :
    r.Stopping (some f') := by
  cases h with
  | check f₀ hf hkill₀ hqueued hstop =>
    obtain rfl := Option.some.inj hf
    exact .check f' rfl (hkill.trans hkill₀) hqueued hstop
  | stopped hstage hstatus => exact .stopped hstage hstatus

theorem advances_ending {flags : Option Flags} (hstage : r.stage = .ending) (h : r.Advances flags r') :
    r' = { r with stage := .ended } := by
  cases h with
  | finish => rfl
  | startFails _ _ h | start _ _ _ h | wakeFails _ _ _ h | wakeStops _ _ _ _ h | sleep _ _ _ _ h | wake _ _ _ _ h
  | gathered _ _ _ _ h | recorded _ _ _ _ _ h | giveUp _ _ _ h | next _ _ _ _ h =>
    rw [hstage] at h
    cases h

end Runner

/-! ## All calls -/

namespace MultiAgentOrchestrator

variable {s : MultiAgentOrchestrator} {r r' : Runner} {a : Act} {log : List Note}

theorem killed_notMem_noteStage (runner : Nat) (r : Runner) : .killed ∉ noteStage runner r := by
  unfold noteStage
  split <;> simp

theorem killed_notMem_notes (runner : Nat) (before : Stage) (r : Runner) (a : Act) :
    .killed ∉ notes runner before r a := by
  unfold notes
  split
  · exact killed_notMem_noteStage runner r
  · split <;> simp
  · simp
  · simp

theorem halted_noteStage (h : Halted log) (runner : Nat)
    (hended : r.stage = .ended → r.run.execution.status = .killed) : Halted (noteStage runner r ++ log) := by
  unfold noteStage
  split
  · exact ⟨h, fun _ => ⟨by simp, by simp⟩⟩
  · next hstage => exact ⟨h, fun _ => ⟨by simp, fun _ _ heq => by
      obtain ⟨-, rfl⟩ := Note.finished.inj heq
      exact hended hstage⟩⟩
  · exact h

/-- What holds after a kill: every call that is at work is on its way to it. -/
structure Held (s : MultiAgentOrchestrator) : Prop where
  halted : Halted s.log
  registered : .killed ∈ s.log → s.runners ≠ []
  stopping : .killed ∈ s.log → ∀ runner r, s.runners[runner]? = some r → r.stage ≠ .ended →
    s.Alone runner ∧ r.Stopping s.flags

theorem held_of_not_killed (h : .killed ∉ s.log) : s.Held :=
  ⟨halted_of_not_killed h, fun hmem => absurd hmem h, fun hmem => absurd hmem h⟩

/-- One call that is alone at work does something, and stays on its way or ends. -/
theorem Held.replace (h : s.Held) {s' : MultiAgentOrchestrator} {runner : Nat} (hr : s.runners[runner]? = some r)
    (hrunners : s'.runners = s.runners.set runner r') (hlog : Halted s'.log)
    (hlive : r'.stage ≠ .ended → r.stage ≠ .ended) (hkilled : .killed ∈ s'.log → .killed ∈ s.log)
    (hstopping : .killed ∈ s.log → ∀ (other : Nat) (r₀ : Runner), (s.runners.set runner r')[other]? = some r₀ →
      r₀.stage ≠ .ended → r₀.Stopping s'.flags) : s'.Held := by
  have hwas (other : Nat) (r₀ : Runner) (hother : (s.runners.set runner r')[other]? = some r₀)
      (hlive₀ : r₀.stage ≠ .ended) : ∃ r₁, s.runners[other]? = some r₁ ∧ r₁.stage ≠ .ended := by
    rcases getElem?_set_cases hother with ⟨rfl, rfl⟩ | ⟨-, hother⟩
    · exact ⟨r, hr, hlive hlive₀⟩
    · exact ⟨r₀, hother, hlive₀⟩
  refine ⟨hlog, fun hmem => ?_, fun hmem other r₀ hother hlive₀ => ⟨fun third r₂ hthird hlive₂ => ?_, ?_⟩⟩
  · rw [hrunners]
    simpa using h.registered (hkilled hmem)
  · rw [hrunners] at hother hthird
    obtain ⟨r₁, hr₁, hlive₁⟩ := hwas other r₀ hother hlive₀
    obtain ⟨r₃, hr₃, hlive₃⟩ := hwas third r₂ hthird hlive₂
    exact (h.stopping (hkilled hmem) other r₁ hr₁ hlive₁).1 third r₃ hr₃ hlive₃
  · rw [hrunners] at hother
    exact hstopping (hkilled hmem) other r₀ hother hlive₀

theorem held_act (h : s.Held) {runner : Nat} (hok : s.InTime (.act runner a)) (hr : s.runners[runner]? = some r)
    (hact : s.Acts r a r') : (s.commit runner r r' a).Held := by
  by_cases hmem : .killed ∈ s.log
  case neg =>
    refine held_of_not_killed fun hnew => ?_
    exact (List.mem_append.mp hnew).elim (killed_notMem_notes _ _ _ _) hmem
  -- Only the call itself is at work, so only what becomes of it matters.
  have hreplace (hlog : Halted (notes runner r.stage r' a ++ s.log)) (hlive : r'.stage ≠ .ended → r.stage ≠ .ended)
      (hstopping : r'.stage ≠ .ended → r'.Stopping (s.flagsAfter r' a)) (hothers : r.stage ≠ .ended ∨
        s.flagsAfter r' a = s.flags) : (s.commit runner r r' a).Held := by
    refine h.replace hr rfl hlog hlive (fun _ => hmem) fun _ other r₀ hother hlive₀ => ?_
    rcases getElem?_set_cases hother with ⟨rfl, rfl⟩ | ⟨hne, hother⟩
    · exact hstopping hlive₀
    · obtain ⟨halone, hstop⟩ := h.stopping hmem other r₀ hother hlive₀
      rcases hothers with hlive' | hflags
      · exact absurd (halone runner r hr hlive').symm hne
      · change r₀.Stopping (s.flagsAfter r' a)
        rwa [hflags]
  by_cases hended : r.stage = .ended
  · cases hact with
    | store => exact hreplace h.halted (fun hlive => hlive) (fun hlive => absurd hended hlive) (.inr rfl)
    | advance r' hsaved hadvance => cases hadvance <;> simp_all
    | move a waveIndex before n after rest phase hwave => simp [hwave] at hended
  · obtain ⟨-, hstopping⟩ := h.stopping hmem runner r hr hended
    cases hact with
    | store =>
      refine hreplace h.halted (fun _ => hended) (fun _ => ?_) (.inl hended)
      cases hstopping with
      | check f hf hkill hqueued hstop => exact .check f hf hkill hqueued hstop
      | stopped hstage hstatus => exact .stopped hstage hstatus
    | advance r' hsaved hadvance =>
      cases hstopping with
      | check f hf hkill hqueued hstop =>
        rw [hf] at hadvance
        have hnext := Runner.Stopping.advance hkill hstop hadvance
        have hflags : s.flagsAfter r' .advance = some f := by
          unfold flagsAfter
          dsimp only
          split
          · next hstage => exact absurd hstage hnext.live
          · exact hf
        refine hreplace (halted_noteStage h.halted runner fun h => absurd h hnext.live) (fun _ => hended) (fun _ => ?_)
          (.inl hended)
        rw [hflags]
        exact hnext
      | stopped hstage hstatus =>
        obtain rfl := Runner.advances_ending hstage hadvance
        exact hreplace (halted_noteStage (r := { r with stage := .ended }) h.halted runner fun _ => hstatus)
          (fun _ => hended) (fun hlive => absurd rfl hlive) (.inl hended)
    | move a waveIndex before n after rest phase hstage hmoves =>
      cases hstopping with
      | stopped hstage' => simp [hstage] at hstage'
      | check f hf hkill hqueued hstop =>
        have hkilled : s.isKilled = true := by simp [isKilled, hf, hkill]
        rw [hkilled] at hmoves
        have hnext := Runner.Stopping.move hkill hstage hqueued hmoves fun nodeId result ha => by
          subst ha
          exact hok hmem r hr
        have hn : n ∈ r.nodes := by simp [Runner.nodes, hstage]
        have hflags : s.flagsAfter { r with stage := .wave waveIndex (before ++ { n with phase } :: after) rest } a =
            some f := by
          unfold flagsAfter
          split <;> exact hf
        refine hreplace ?_ (fun _ => hended) (fun _ => by rw [hflags]; exact hnext) (.inl hended)
        cases hmoves with
        | dispatch | reject => exact h.halted
        | begin number hphase =>
          have hnot := hqueued n hn
          simp [NodeRun.isQueued, hphase] at hnot
        | finish => exact ⟨h.halted, fun _ => ⟨by simp, by simp⟩⟩

theorem Held.of_same (h : s.Held) {s' : MultiAgentOrchestrator} (hrunners : s'.runners = s.runners)
    (hflags : s'.flags = s.flags) (hlog : s'.log = s.log) : s'.Held := by
  obtain ⟨hhalted, hregistered, hstopping⟩ := h
  unfold Alone at hstopping
  rw [← hlog] at hhalted hregistered hstopping
  rw [← hrunners] at hregistered hstopping
  rw [← hflags] at hstopping
  exact ⟨hhalted, hregistered, hstopping⟩

/-- A step keeps what a kill has brought about. -/
theorem held_step (h : s.Held) (e : Event) (hok : s.InTime e) : (s.step e).Held := by
  have hsteps := s.step_cases e
  generalize s.step e = s' at hsteps ⊢
  cases hsteps with
  | stay => exact h
  | start d inputData r hrunners =>
    exact held_of_not_killed fun hmem => h.registered hmem hrunners
  | read => exact h.of_same rfl rfl rfl
  | refuse => exact h.of_same rfl rfl rfl
  | strand call r htakes => exact held_of_not_killed (hok htakes)
  | resume call row waves r r' htakes =>
    refine held_of_not_killed fun hmem => ?_
    exact (List.mem_append.mp hmem).elim (killed_notMem_noteStage _ _) (hok htakes)
  | act runner a r r' hr hact => exact held_act h hok hr hact
  | slots => exact h.of_same rfl rfl rfl
  | pause r f hr hf =>
    refine ⟨⟨h.halted, fun _ => ⟨by simp, by simp⟩⟩, fun hmem => h.registered (by simpa using hmem),
      fun hmem runner r₀ hr₀ hlive => ?_⟩
    obtain ⟨halone, hstopping⟩ := h.stopping (by simpa using hmem) runner r₀ hr₀ hlive
    rw [hf] at hstopping
    exact ⟨halone, hstopping.of_kill rfl⟩
  | unpause r f hr hf hstatus =>
    rw [List.getLast?_eq_getElem?] at hr
    refine h.replace hr rfl ⟨h.halted, fun _ => ⟨by simp, by simp⟩⟩ (fun hlive => hlive) (by simp)
      fun hmem other r₀ hother hlive => ?_
    rcases getElem?_set_cases hother with ⟨rfl, rfl⟩ | ⟨-, hother⟩
    · have hstopping := (h.stopping hmem _ r hr hlive).2
      rw [hf] at hstopping
      cases hstopping with
      | check f' hf' hkill hqueued hstop =>
        obtain rfl := Option.some.inj hf'
        exact .check _ rfl hkill hqueued hstop
      | stopped hstage hkilled =>
        rw [hkilled] at hstatus
        simp at hstatus
    · have hstopping := (h.stopping hmem other r₀ hother hlive).2
      rw [hf] at hstopping
      exact hstopping.of_kill rfl
  | kill r f hr hf hstatus =>
    have hnotNil : s.runners ≠ [] := by
      intro hnil
      rw [hnil] at hr
      cases hr
    refine ⟨⟨h.halted, fun _ => ⟨by simp, by simp⟩⟩, fun _ => hnotNil, fun _ runner r₀ hr₀ hlive => ?_⟩
    obtain ⟨halone, hqueued, hstop⟩ := hok ⟨r, f, hr, hf, hstatus⟩ runner r₀ hr₀ hlive
    exact ⟨halone, .check _ rfl rfl hqueued hstop⟩

/-- **In a run whose kills are in time, nothing begins after a kill, and the execution ends as
killed.** -/
theorem kill_takes_effect {events : List Event} (hs : .killed ∉ s.log) (hok : Lib.Admitted step InTime s events) :
    Halted (Lib.run step s events).log :=
  (hok.invariant Held (held_of_not_killed hs) fun _ e h hok => held_step h e hok).halted

/-! ## Kills in time, and too late -/

/-- The node of the first wave runs, and the second wave is still to come. -/
def firstWave : MultiAgentOrchestrator where
  executionId := "e"
  maxConcurrent := 5
  free := fun _ => 0
  flags := some {}
  runners := [{
    resumed := false
    definition := twoWaves
    run := { execution := { executionId := "e", workflowId := "w", status := .running } }
    stage := .wave 0 [{ node := { nodeId := "a", agentType := "t" }, phase := .running 0 }] [["b"]]
    total := 2 }]
  log := [.begun 0 0 "a", .entered 0 0]

/-- The node comes back, and the call goes on to its end. -/
def comesBack (result : Except PyError Value) : List Event :=
  [.act 0 (.finish "a" result), .act 0 .advance, .act 0 .store, .act 0 .advance, .act 0 .store, .act 0 .advance,
    .act 0 .store, .act 0 .advance]

/-- Killed while a wave is still to come, the execution stops there. -/
theorem killed_between_waves :
    let events := .killWorkflow :: comesBack (.ok .none)
    (Lib.run step firstWave events).log =
        [.finished 0 .killed, .ended 0 "a" true, .killed, .begun 0 0 "a", .entered 0 0] ∧
      Halted (Lib.run step firstWave events).log := by
  intro events
  refine ⟨by decide +kernel, @kill_takes_effect firstWave events (by simp [firstWave]) ?_⟩
  refine ⟨fun _ runner r hr hlive => ?_, fun _ r hr => ?_, trivial, trivial, trivial, trivial, trivial, trivial,
    trivial, trivial⟩
  · cases runner with
    | succ n => cases hr
    | zero =>
      cases hr
      refine ⟨fun other r' hr' _ => ?_, by decide, .inr ⟨by decide, by decide⟩⟩
      cases other with
      | zero => rfl
      | succ n => cases hr'
  · cases hr
    exact .inr (.inr ⟨rfl, by decide, by decide⟩)

/-- The first node is past its kill check, behind the semaphore of its agent. -/
def handedOut (d : WorkflowDefinition) : List Event :=
  [.start d [], .act 0 .store, .act 0 .advance, .act 0 (.dispatch "a")]

/-- A kill lets a node begin that waits for a slot, and lets the last wave complete and a failing
one fail. -/
theorem killed_too_late :
    (¬ Halted (Lib.run step (orchestrator none 0)
      (handedOut singleNode ++ [.killWorkflow, .slots "t" 1, .act 0 (.begin "a")])).log) ∧
    (¬ Halted (Lib.run step (orchestrator none 1)
      (handedOut singleNode ++ [.act 0 (.begin "a"), .killWorkflow] ++ comesBack (.ok .none))).log) ∧
    ¬ Halted (Lib.run step (orchestrator none 1)
      (handedOut twoWaves ++ [.act 0 (.begin "a"), .killWorkflow] ++ comesBack (.error (.other "E" "x")))).log := by
  have hqueued : (Lib.run step (orchestrator none 0)
      (handedOut singleNode ++ [.killWorkflow, .slots "t" 1, .act 0 (.begin "a")])).log =
      [.begun 0 0 "a", .killed, .entered 0 0] := by decide +kernel
  have hcompleted : (Lib.run step (orchestrator none 1)
      (handedOut singleNode ++ [.act 0 (.begin "a"), .killWorkflow] ++ comesBack (.ok .none))).log =
      [.finished 0 .completed, .ended 0 "a" true, .killed, .begun 0 0 "a", .entered 0 0] := by decide +kernel
  have hfailed : (Lib.run step (orchestrator none 1)
      (handedOut twoWaves ++ [.act 0 (.begin "a"), .killWorkflow] ++ comesBack (.error (.other "E" "x")))).log =
      [.finished 0 .failed, .ended 0 "a" false, .killed, .begun 0 0 "a", .entered 0 0] := by decide +kernel
  rw [hqueued, hcompleted, hfailed]
  refine ⟨fun h => ?_, fun h => ?_, fun h => ?_⟩
  · exact (h.2 (by decide)).1 0 0 "a" rfl
  · exact absurd ((h.2 (by decide)).2 0 .completed rfl) (by decide)
  · exact absurd ((h.2 (by decide)).2 0 .failed rfl) (by decide)

end MultiAgentOrchestrator

end Occp.Workflow
