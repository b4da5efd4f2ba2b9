import Occp.Autodev.MergeGate

/-!
# Terminal states of a run

A terminal run changes its state only where an operation looks at the kill switch
before it looks at the run.
-/

namespace Occp.Autodev

open AutoDevOrchestrator

variable {File : Type}

/-! ## The run that an operation is about -/

/-- No run but this one is written. -/
def OnlyTouches (id : String) (o o' : AutoDevOrchestrator File) : Prop :=
  o'.runs = o.runs ∨ ∃ run, o'.runs = o.runs.set id run

theorem get?_of_onlyTouches {o o' : AutoDevOrchestrator File} {id other : String} (h : OnlyTouches id o o')
    (hne : other ≠ id) : o'.runs.get? other = o.runs.get? other := by
  rcases h with hsame | ⟨run, hset⟩
  · rw [hsame]
  · rw [hset, Dict.get?_set_of_ne _ _ _ _ hne]

variable {o o' : AutoDevOrchestrator File} {run : AutoDevRun} {id : String}

theorem touches_settle (target : RunState) (reason : String) (hruns : o'.runs = o.runs) (hid : run.runId = id) :
    OnlyTouches id o (settle o' run target reason).2 := by
  subst hid
  exact .inr ⟨run.recordTransition target reason, by rw [← hruns]; rfl⟩

theorem touches_abandon (target : RunState) (error reason : String) (hruns : o'.runs = o.runs) (hid : run.runId = id) :
    OnlyTouches id o (abandon o' run target error reason).2 := by
  unfold abandon
  exact touches_settle target reason hruns hid

theorem touches_submitForApproval (m : Moment) (a : RiskAssessment) (hruns : o'.runs = o.runs) (hid : run.runId = id) :
    OnlyTouches id o (submitForApproval m o' run a).2 := by
  unfold submitForApproval
  dsimp only
  split
  · subst hid
    exact .inr ⟨run, by rw [← hruns]; rfl⟩
  · split
    · exact touches_settle _ _ hruns hid
    · exact touches_settle _ _ hruns hid

theorem touches_decide (c : Config File) (m : Moment) (report : VerificationReport) (hruns : o'.runs = o.runs)
    (hid : run.runId = id) : OnlyTouches id o (AutoDevOrchestrator.decide c m o' run report).2 := by
  unfold AutoDevOrchestrator.decide
  dsimp only
  split
  · exact touches_abandon _ _ _ hruns hid
  · split
    · exact touches_abandon _ _ _ hruns hid
    · split
      · exact touches_submitForApproval m _ hruns hid
      · split
        · exact touches_abandon _ _ _ hruns hid
        · exact touches_submitForApproval m _ hruns hid

theorem touches_build (c : Config File) (m : Moment) (added : Except PyError (Tree File))
    (verification : List String → Except PyError VerificationReport) (hid : run.runId = id) :
    OnlyTouches id o (build c m o run added verification).2 := by
  unfold build
  dsimp only
  split
  · exact touches_settle _ _ rfl hid
  · split
    · exact touches_abandon _ _ _ rfl hid
    · split
      · exact touches_abandon _ _ _ rfl hid
      · unfold verify
        dsimp only
        split
        · exact touches_abandon _ _ _ rfl hid
        · exact touches_decide c m _ rfl hid

theorem touches_propose (m : Moment) (title rationale diff : String) :
    OnlyTouches id o (propose m o id title rationale diff).2 := by
  unfold propose
  split
  · exact .inl rfl
  · split
    · exact .inl rfl
    · split
      · exact .inl rfl
      · exact touches_settle _ _ rfl rfl

section Calls

variable (hids : ∀ run, o.runs.get? id = some run → run.runId = id)
include hids

theorem touches_executeBuildAndVerify (c : Config File) (m : Moment) (added : Except PyError (Tree File))
    (verification : List String → Except PyError VerificationReport) :
    OnlyTouches id o (executeBuildAndVerify c m o id added verification).2 := by
  unfold executeBuildAndVerify
  split
  · exact .inl rfl
  · next run hrun =>
    split
    · have hid := hids run hrun
      exact touches_settle _ _ rfl hid
    · split
      · exact .inl rfl
      · exact touches_build c m added verification (hids run hrun)

theorem touches_resolveApproval (m : Moment) (approved : Bool) (actor reason : String) :
    OnlyTouches id o (resolveApproval m o id approved actor reason).2 := by
  unfold resolveApproval
  split
  · exact .inl rfl
  · next run hrun =>
    have hsettle (target : RunState) (text : String) (o' : AutoDevOrchestrator File) (h : o'.runs = o.runs) :
        OnlyTouches id o (settle o' run target text).2 := touches_settle target text h (hids run hrun)
    split
    · exact .inl rfl
    · split
      · exact .inl rfl
      · split
        · split
          · exact .inl rfl
          · exact hsettle _ _ _ rfl
        · split
          · exact .inl rfl
          · exact hsettle _ _ _ rfl

theorem touches_finalizeMerge (m : Moment) : OnlyTouches id o (finalizeMerge m o id).2 := by
  unfold finalizeMerge
  split
  · exact .inl rfl
  · next run hrun =>
    have hid := hids run hrun
    split
    · exact touches_settle _ _ rfl hid
    · split
      · exact .inl rfl
      · exact touches_settle _ _ rfl hid

theorem touches_cancel (reason : String) : OnlyTouches id o (cancel o id reason).2 := by
  unfold cancel
  split
  · exact .inl rfl
  · next run hrun =>
    split
    · exact .inl rfl
    · exact touches_settle _ _ rfl (hids run hrun)

end Calls

def Operation.target : Operation File → Option String
  | .propose runId _ _ _ => some runId
  | .executeBuildAndVerify runId _ _ => some runId
  | .resolveApproval runId _ _ _ => some runId
  | .finalizeMerge runId => some runId
  | .cancel runId _ => some runId
  | .cleanupExpired => none

theorem get?_apply_of_ne (c : Config File) (m : Moment) (op : Operation File) (hinv : GateInv o)
    (hne : op.target ≠ some id) : (apply c m o op).runs.get? id = o.runs.get? id := by
  have hother {runId : String} {o' : AutoDevOrchestrator File} (h : OnlyTouches runId o o')
      (hid : some runId ≠ some id) : o'.runs.get? id = o.runs.get? id :=
    get?_of_onlyTouches h fun heq => hid (by rw [heq])
  have hids (runId : String) (run : AutoDevRun) (h : o.runs.get? runId = some run) : run.runId = runId :=
    (hinv runId run h).1
  cases op with
  | propose runId title rationale diff => exact hother (touches_propose m title rationale diff) hne
  | executeBuildAndVerify runId added verification =>
    exact hother (touches_executeBuildAndVerify (hids runId) c m added verification) hne
  | resolveApproval runId approved actor reason =>
    exact hother (touches_resolveApproval (hids runId) m approved actor reason) hne
  | finalizeMerge runId => exact hother (touches_finalizeMerge (hids runId) m) hne
  | cancel runId reason => exact hother (touches_cancel (hids runId) reason) hne
  | cleanupExpired => rfl

/-! ## One operation on a terminal run -/

def stateAt (o : AutoDevOrchestrator File) (id : String) : Option RunState := (o.runs.get? id).map (·.state)

theorem stateAt_of_get? (h : o.runs.get? id = some run) : stateAt o id = some run.state := by
  rw [stateAt, h]
  rfl

theorem stateAt_settle (o : AutoDevOrchestrator File) (target : RunState) (reason : String) (hid : run.runId = id) :
    stateAt (settle o run target reason).2 id = some target := by
  subst hid
  change (Dict.get? (o.runs.set run.runId (run.recordTransition target reason)) run.runId).map _ = _
  rw [Dict.get?_set_self]
  rfl

/-- The operation finds the kill switch active, and cancels the run whatever its state. -/
def Operation.stops (m : Moment) (id : String) : Operation File → Bool
  | .executeBuildAndVerify runId _ _ => runId == id && m.killSwitch.isSome
  | .finalizeMerge runId => runId == id && m.killSwitch.isSome
  | _ => false

theorem stops_of_target_ne {m : Moment} {op : Operation File} (hne : op.target ≠ some id) : op.stops m id = false := by
  cases op with
  | executeBuildAndVerify runId added verification => simp_all [Operation.stops, Operation.target]
  | finalizeMerge runId => simp_all [Operation.stops, Operation.target]
  | _ => rfl

/-- An operation on a run that is over stops it once more, or leaves its state alone. -/
theorem stateAt_apply (c : Config File) (m : Moment) (op : Operation File) (hinv : GateInv o) (hfresh : op.Fresh o)
    (hrun : o.runs.get? id = some run) (hterminal : run.state.isTerminal = true) :
    stateAt (apply c m o op) id = if op.stops m id then some .cancelled else some run.state := by
  have hstate := stateAt_of_get? hrun
  have hid : run.runId = id := (hinv id run hrun).1
  have hopen {s : RunState} (h : s.isTerminal = false) : run.state ≠ s := by
    rintro rfl
    rw [h] at hterminal
    cases hterminal
  by_cases hne : op.target ≠ some id
  · rw [stops_of_target_ne hne, stateAt, get?_apply_of_ne c m op hinv hne]
    exact hstate
  · have htarget : op.target = some id := not_ne_iff.mp hne
    cases op with
    | propose runId title rationale diff =>
      obtain rfl : runId = id := Option.some.inj htarget
      cases hrun.symm.trans hfresh
    | executeBuildAndVerify runId added verification =>
      obtain rfl : runId = id := Option.some.inj htarget
      have hproposed : run.state ≠ .proposed := hopen rfl
      unfold Operation.stops
      simp only [apply]
      unfold executeBuildAndVerify
      cases hkill : m.killSwitch with
      | some reason =>
        simp only [hrun, beq_self_eq_true, Bool.true_and, Option.isSome_some, if_true]
        exact stateAt_settle _ .cancelled _ hid
      | none => simp [hrun, hproposed, hstate]
    | resolveApproval runId approved actor reason =>
      obtain rfl : runId = id := Option.some.inj htarget
      have hawaiting : run.state ≠ .awaitingApproval := hopen rfl
      simp only [apply, Operation.stops]
      unfold resolveApproval
      simp [hrun, hawaiting, hstate]
    | finalizeMerge runId =>
      obtain rfl : runId = id := Option.some.inj htarget
      have happroved : run.state ≠ .approved := hopen rfl
      unfold Operation.stops
      simp only [apply]
      unfold finalizeMerge
      cases hkill : m.killSwitch with
      | some reason =>
        simp only [hrun, beq_self_eq_true, Bool.true_and, Option.isSome_some, if_true]
        exact stateAt_settle _ .cancelled _ hid
      | none => simp [hrun, happroved, hstate]
    | cancel runId reason =>
      obtain rfl : runId = id := Option.some.inj htarget
      simp only [apply, Operation.stops]
      unfold cancel
      simp [hrun, hterminal, hstate]
    | cleanupExpired => cases htarget

/-! ## Every sequence of later operations -/

/-- The ids that `propose` draws along the steps are new. -/
def FreshIds (c : Config File) (o : AutoDevOrchestrator File) (steps : List (Moment × Operation File)) : Prop :=
  Lib.Admitted (fun o step => apply c step.1 o step.2) (fun o step => step.2.Fresh o) o steps

theorem stays_iff (c : Config File) (after : List (Moment × Operation File)) (hinv : GateInv o)
    (hfresh : FreshIds c o after) (hrun : o.runs.get? id = some run) (hterminal : run.state.isTerminal = true) :
    (∀ mid, mid <+: after → stateAt (runAll c o mid) id = some run.state) ↔
      (run.state = .cancelled ∨ ∀ step ∈ after, step.2.stops step.1 id = false) := by
  induction after generalizing o run with
  | nil => exact iff_of_true (fun mid h => by rw [List.prefix_nil.mp h]; exact stateAt_of_get? hrun) (.inr nofun)
  | cons step after ih =>
    obtain ⟨m, op⟩ := step
    obtain ⟨hfirst, hlater⟩ := hfresh
    have hstep := stateAt_apply c m op hinv hfirst hrun hterminal
    have hinv' : GateInv (apply c m o op) := gateInv_of_effect hinv (effect_apply c m op hinv)
    constructor
    · intro hstays
      by_cases hcancelled : run.state = .cancelled
      · exact .inl hcancelled
      · have hone : stateAt (apply c m o op) id = some run.state := hstays [(m, op)] ⟨after, rfl⟩
        have hstops : op.stops m id = false := by
          by_contra hstops
          rw [if_pos (by simpa using hstops)] at hstep
          exact hcancelled (Option.some.inj (hone.symm.trans hstep))
        obtain ⟨run', hrun', hsame⟩ := Option.map_eq_some_iff.mp hone
        rw [← hsame] at hterminal hcancelled
        have hrest := (ih hinv' hlater hrun' hterminal).mp fun mid hmid => by
          rw [hsame]
          exact hstays ((m, op) :: mid) ((List.prefix_cons_inj _).mpr hmid)
        refine .inr fun step hmem => ?_
        rcases List.mem_cons.mp hmem with rfl | hmem
        · exact hstops
        · exact hrest.resolve_left hcancelled step hmem
    · intro h
      have hone : stateAt (apply c m o op) id = some run.state := by
        rcases h with hcancelled | hnever
        · rw [hstep, hcancelled, ite_self]
        · rw [hstep, hnever (m, op) List.mem_cons_self]
          rfl
      obtain ⟨run', hrun', hsame⟩ := Option.map_eq_some_iff.mp hone
      rw [← hsame] at hterminal h ⊢
      have hrest := (ih hinv' hlater hrun' hterminal).mpr (h.imp_right fun hnever step hmem =>
        hnever step (List.mem_cons_of_mem _ hmem))
      intro mid hmid
      rcases List.prefix_cons_iff.mp hmid with rfl | ⟨rest, rfl, hprefix⟩
      · rw [hsame]
        exact stateAt_of_get? hrun
      · exact hrest rest hprefix

/-- **A terminal run keeps its state through all later operations just when it is cancelled already,
or no operation on it finds the kill switch active.** -/
theorem terminal_state_kept_iff (c : Config File) (o : AutoDevOrchestrator File) (hruns : o.runs = [])
    (before after : List (Moment × Operation File)) (hfresh : FreshIds c o (before ++ after)) (id : String)
    (run : AutoDevRun) (hrun : (runAll c o before).runs.get? id = some run) (hterminal : run.state.isTerminal = true) :
    (∀ mid, mid <+: after → stateAt (runAll c o (before ++ mid)) id = some run.state) ↔
      (run.state = .cancelled ∨ ∀ step ∈ after, step.2.stops step.1 id = false) := by
  have hlater : FreshIds c (runAll c o before) after := (Lib.admitted_append.mp hfresh).2
  have hkept := stays_iff c after (gateInv_runAll c o hruns before) hlater hrun hterminal
  have hsplit (mid : List (Moment × Operation File)) :
      runAll c o (before ++ mid) = runAll c (runAll c o before) mid := by
    unfold runAll Lib.run
    rw [List.foldl_append]
  simp only [hsplit]
  exact hkept

def failedBuild : List (Moment × Operation String) :=
  [({ now := 0 }, .propose "r1" "a" "b" "+y\n"),
    ({ now := 1 }, .executeBuildAndVerify "r1" (.error (.other "OSError" "disk full")) fun _ => .ok { stages := [] })]

theorem failedBuild_fails :
    ((runAll storeConfig { budget := { current := { date := 0 } } } failedBuild).runs.get? "r1").map (·.state) =
      some .failed := by
  decide +kernel

/-- A failed run that is cancelled by hand stays failed. -/
theorem failedBuild_stays_failed :
    stateAt (runAll storeConfig { budget := { current := { date := 0 } } }
      (failedBuild ++ [({ now := 2 }, Operation.cancel "r1" "manual")])) "r1" = some .failed := by
  obtain ⟨run, hrun, hstate⟩ := Option.map_eq_some_iff.mp failedBuild_fails
  have hkept := terminal_state_kept_iff storeConfig { budget := { current := { date := 0 } } } rfl failedBuild
    [({ now := 2 }, .cancel "r1" "manual")] ⟨rfl, trivial, trivial, trivial⟩ "r1" run hrun (by rw [hstate]; rfl)
  rw [hstate] at hkept
  exact hkept.mpr (.inr (by simp [Operation.stops])) _ (List.prefix_refl _)

/-- A failed run that is asked to merge while the kill switch is active is cancelled. -/
theorem failed_run_cancelled :
    ¬ ∀ (before after : List (Moment × Operation String)) (run : AutoDevRun),
      FreshIds storeConfig { budget := { current := { date := 0 } } } (before ++ after) →
      (runAll storeConfig { budget := { current := { date := 0 } } } before).runs.get? "r1" = some run →
      run.state.isTerminal = true → ∀ mid, mid <+: after →
        stateAt (runAll storeConfig { budget := { current := { date := 0 } } } (before ++ mid)) "r1" =
          some run.state := by
  intro h
  obtain ⟨run, hrun, hstate⟩ := Option.map_eq_some_iff.mp failedBuild_fails
  have hkept := h failedBuild [({ now := 2, killSwitch := some "drill" }, .finalizeMerge "r1")] run
    ⟨rfl, trivial, trivial, trivial⟩ hrun (by rw [hstate]; rfl) _ (List.prefix_refl _)
  rw [hstate] at hkept
  revert hkept
  decide +kernel

end Occp.Autodev
