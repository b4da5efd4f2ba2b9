import Occp.Autodev.ModifiedFiles
import Occp.Lib.Except
import Occp.Autodev.Orchestrator

/-!
# Which changes are checked

A run is verified on the files that `git diff HEAD` names, not on those that its diff
touches. The two differ exactly on the paths that git's output does not spell.
-/

namespace Occp.Autodev

open AutoDevOrchestrator
open Lib.Except (bind_eq_ok pure_eq_ok)

variable {File : Type}

/-! ## Touched and reported -/

/-- The file is created, modified or deleted. A rename does two of these. -/
def Touched (head work : Tree File) (path : String) : Prop := head.get? path ≠ work.get? path

/-- What the documentation of `git diff HEAD` promises about its output. -/
structure Git.Documented (git : Git File) : Prop where
  /-- A file that is not in HEAD is not tracked: nothing adds it to the index. -/
  tracked : ∀ head work files, git.diffHead head work = .ok files → ∀ d ∈ files, (head.get? d.path).isSome
  /-- No extended header line looks like a `---` or `+++` line. -/
  silent : ∀ head work files, git.diffHead head work = .ok files →
    ∀ d ∈ files, ∀ line ∈ d.extended, linePaths line.toList = []

/-- Git shows the change of a tracked file as hunks, under a name that it prints as it is. -/
def Shown (files : List FileDiff) (head : Tree File) (path : String) : Prop :=
  (head.get? path).isSome ∧ (∃ d ∈ files, d.path = path ∧ d.hunks ≠ []) ∧
    quoted path = false ∧ ' ' ∉ path.toList

/-- A line of a hunk, or the header of another file, happens to spell the path. -/
def Mimicked (files : List FileDiff) (path : String) : Prop :=
  ∃ d ∈ files, d.hunks ≠ [] ∧
    ((d.path ≠ path ∧ shownAs d.path = some path) ∨ ∃ line ∈ d.hunks, path ∈ linePaths line.toList)

/-- The output of `git diff HEAD` spells the path. -/
def Reported (files : List FileDiff) (head : Tree File) (path : String) : Prop :=
  path ≠ "/dev/null" ∧ (Shown files head path ∨ Mimicked files path)

theorem mem_lines_iff (d : FileDiff) (hsilent : ∀ line ∈ d.extended, linePaths line.toList = []) (path : String) :
    (∃ line ∈ d.lines, path ∈ linePaths line) ↔
      d.hunks ≠ [] ∧ (shownAs d.path = some path ∨ ∃ line ∈ d.hunks, path ∈ linePaths line.toList) := by
  have hextended : ¬ ∃ line ∈ d.extended.map String.toList, path ∈ linePaths line := by
    rintro ⟨_, hline, hpath⟩
    obtain ⟨line, hmem, rfl⟩ := List.mem_map.mp hline
    rw [hsilent line hmem] at hpath
    cases hpath
  by_cases hhunks : d.hunks = []
  · simp only [FileDiff.lines, hhunks, if_true, List.append_nil]
    exact ⟨fun h => absurd h hextended, fun h => absurd rfl h.1⟩
  · rw [← mem_header_iff d path]
    simp only [FileDiff.lines, hhunks, if_false, List.mem_append, List.mem_cons, List.mem_map, or_and_right,
      exists_or, exists_eq_left, exists_exists_and_eq_and, or_assoc, ne_eq, not_false_eq_true, true_and]
    simp only [List.mem_map, exists_exists_and_eq_and] at hextended
    exact ⟨fun h => h.resolve_left hextended, .inr⟩

/-- The sandbox lists exactly the paths that the output spells. -/
theorem mem_files_iff (git : Git File) (hgit : git.Documented) (head work : Tree File) (files : List FileDiff)
    (h : git.diffHead head work = .ok files) (path : String) :
    path ∈ parseModifiedFiles (diffText files) ↔ Reported files head path := by
  rw [mem_parseModifiedFiles, Reported]
  refine and_congr_right fun _ => ?_
  constructor
  · rintro ⟨d, hd, hline⟩
    obtain ⟨hhunks, hspelt⟩ := (mem_lines_iff d (hgit.silent head work files h d hd) path).mp hline
    by_cases hself : d.path = path ∧ shownAs d.path = some path
    · obtain ⟨rfl, hshown⟩ := hself
      exact .inl ⟨hgit.tracked head work files h d hd, ⟨d, hd, rfl, hhunks⟩, (shownAs_self_iff d.path).mp hshown⟩
    · refine .inr ⟨d, hd, hhunks, hspelt.imp_left fun hshown => ⟨fun hp => hself ⟨hp, hshown⟩, hshown⟩⟩
  · rintro (⟨-, ⟨d, hd, rfl, hhunks⟩, hplain⟩ | ⟨d, hd, hhunks, hspelt⟩)
    · exact ⟨d, hd, (mem_lines_iff d (hgit.silent head work files h d hd) d.path).mpr
        ⟨hhunks, .inl ((shownAs_self_iff d.path).mpr hplain)⟩⟩
    · exact ⟨d, hd, (mem_lines_iff d (hgit.silent head work files h d hd) path).mpr
        ⟨hhunks, hspelt.imp_left And.right⟩⟩

/-- A file that the diff creates is never checked under its own header. -/
theorem created_not_shown (files : List FileDiff) (head : Tree File) (path : String) (h : head.get? path = none) :
    ¬ Shown files head path := by
  rintro ⟨hsome, -⟩
  rw [h] at hsome
  cases hsome

/-! ## The files of a run -/

/-- The text that `git apply` is given. -/
def patchText (diff : String) : String :=
  if diff ≠ "" ∧ diff.toList.getLast? ≠ some '\n' then diff ++ "\n" else diff

/-- The worktree holds the applied diff, and the run has the files that git reported. -/
def Captured (git : Git File) (sandbox : Sandbox File) (runId proposedDiff : String)
    (filesModified : List String) : Prop :=
  ∃ handle files, sandbox.get? runId = some handle ∧
    git.apply handle.head (patchText proposedDiff) = .ok handle.tree ∧
    git.diffHead handle.head handle.tree = .ok files ∧
    filesModified = parseModifiedFiles (diffText files)

/-- The run has been in VERIFYING. -/
def Verified (transitions : List Transition) : Prop := ∃ t ∈ transitions, t.target = .verifying

/-- The states that only a verified run gets to. -/
def RunState.needsVerified : RunState → Prop
  | .awaitingApproval | .approved | .merging | .merged => True
  | _ => False

structure RunInv (git : Git File) (sandbox : Sandbox File) (id : String) (run : AutoDevRun) : Prop where
  runId : run.runId = id
  captured : Verified run.transitions → Captured git sandbox run.runId run.proposedDiff run.filesModified
  verified : run.state.needsVerified → Verified run.transitions

def Inv (git : Git File) (o : AutoDevOrchestrator File) : Prop :=
  ∀ id run, o.runs.get? id = some run → RunInv git o.sandbox id run

/-- The worktree of `id` is what it was, up to being removed or read. -/
def SameTrees (s s' : Sandbox File) (id : String) : Prop :=
  ∀ handle, s.get? id = some handle → ∃ handle', s'.get? id = some handle' ∧ handle'.head = handle.head ∧
    handle'.tree = handle.tree

variable {git : Git File}

theorem sameTrees_refl (s : Sandbox File) (id : String) : SameTrees s s id := fun handle h => ⟨handle, h, rfl, rfl⟩

theorem sameTrees_trans (s s' s'' : Sandbox File) (id : String) (h : SameTrees s s' id) (h' : SameTrees s' s'' id) :
    SameTrees s s'' id := by
  intro handle hs
  obtain ⟨handle', hs', hhead, htree⟩ := h handle hs
  obtain ⟨handle'', hs'', hhead', htree'⟩ := h' handle' hs'
  exact ⟨handle'', hs'', hhead'.trans hhead, htree'.trans htree⟩

theorem sameTrees_set_of_ne (s : Sandbox File) (key id : String) (handle : WorktreeHandle File) (h : id ≠ key) :
    SameTrees s (s.set key handle) id := by
  intro old hs
  exact ⟨old, by rw [Dict.get?_set_of_ne s key id handle h]; exact hs, rfl, rfl⟩

theorem sameTrees_cleanup (s : Sandbox File) (key id : String) : SameTrees s (s.cleanup key) id := by
  unfold Sandbox.cleanup
  split
  · exact sameTrees_refl s id
  · next handle hkey =>
    split
    · exact sameTrees_refl s id
    · by_cases hid : id = key
      · subst hid
        intro old hs
        cases hkey.symm.trans hs
        exact ⟨_, Dict.get?_set_self .., rfl, rfl⟩
      · exact sameTrees_set_of_ne s key id _ hid

theorem captured_mono (s s' : Sandbox File) (runId diff : String) (files : List String) (h : SameTrees s s' runId)
    (hc : Captured git s runId diff files) : Captured git s' runId diff files := by
  obtain ⟨handle, files, hs, happly, hdiff, hfiles⟩ := hc
  obtain ⟨handle', hs', hhead, htree⟩ := h handle hs
  exact ⟨handle', files, hs', by rw [hhead, htree, happly], by rw [hhead, htree, hdiff], hfiles⟩

theorem runInv_mono (s s' : Sandbox File) (id : String) (run : AutoDevRun) (h : SameTrees s s' id)
    (hr : RunInv git s id run) : RunInv git s' id run where
  runId := hr.runId
  captured hv := captured_mono s s' _ _ _ (by rw [hr.runId]; exact h) (hr.captured hv)
  verified := hr.verified

theorem verified_recordTransition (run : AutoDevRun) (target : RunState) (reason : String) :
    Verified (run.recordTransition target reason).transitions ↔ Verified run.transitions ∨ target = .verifying := by
  simp only [Verified, AutoDevRun.recordTransition, List.mem_append, List.mem_singleton, or_and_right,
    exists_or, exists_eq_left]

/-- One run is replaced, and every other worktree is left alone. -/
theorem inv_putRun (o o' : AutoDevOrchestrator File) (run : AutoDevRun) (h : Inv git o) (hruns : o'.runs = o.runs)
    (htrees : ∀ id, id ≠ run.runId → SameTrees o.sandbox o'.sandbox id)
    (hrun : RunInv git o'.sandbox run.runId run) : Inv git (o'.putRun run) := by
  intro id run' hget
  rw [putRun, hruns, Dict.get?_set] at hget
  split at hget
  · next hid =>
    cases hget
    exact hid ▸ hrun
  · next hid => exact runInv_mono _ _ id run' (htrees id hid) (h id run' hget)

/-- A transition that the run's history allows, in a state with the same worktrees. -/
theorem inv_settle (o o' : AutoDevOrchestrator File) (run : AutoDevRun) (target : RunState) (reason : String)
    (h : Inv git o) (hruns : o'.runs = o.runs) (htrees : ∀ id, id ≠ run.runId → SameTrees o.sandbox o'.sandbox id)
    (hcaptured : Verified run.transitions → Captured git o'.sandbox run.runId run.proposedDiff run.filesModified)
    (hverifying : target ≠ .verifying) (htarget : target.needsVerified → Verified run.transitions) : Inv git (settle o' run target reason).2 := by
  refine inv_putRun o o' _ h hruns htrees ⟨rfl, fun hv => ?_, fun hn => ?_⟩
  · exact hcaptured (((verified_recordTransition run target reason).mp hv).resolve_right hverifying)
  · exact (verified_recordTransition run target reason).mpr (.inl (htarget hn))

/-- A run that is given up keeps its files, and its worktree is only removed. -/
theorem inv_abandon (o o' : AutoDevOrchestrator File) (run : AutoDevRun) (target : RunState) (error reason : String)
    (h : Inv git o) (hruns : o'.runs = o.runs) (htrees : ∀ id, id ≠ run.runId → SameTrees o.sandbox o'.sandbox id)
    (hcaptured : Verified run.transitions → Captured git o'.sandbox run.runId run.proposedDiff run.filesModified)
    (hverifying : target ≠ .verifying) (htarget : ¬ target.needsVerified) : Inv git (abandon o' run target error reason).2 := by
  have hclean (id : String) : SameTrees o'.sandbox (o'.sandbox.cleanup run.runId) id := sameTrees_cleanup _ _ _
  refine inv_settle o _ _ target reason h hruns (fun id hid => ?_) (fun hv => ?_) hverifying (absurd · htarget)
  · exact sameTrees_trans _ _ _ id (htrees id hid) (hclean id)
  · exact captured_mono _ _ _ _ _ (hclean run.runId) (hcaptured hv)

theorem inv_submitForApproval (m : Moment) (o o' : AutoDevOrchestrator File) (run : AutoDevRun)
    (assessment : RiskAssessment) (h : Inv git o) (hruns : o'.runs = o.runs)
    (htrees : ∀ id, id ≠ run.runId → SameTrees o.sandbox o'.sandbox id) (hverified : Verified run.transitions)
    (hcaptured : Captured git o'.sandbox run.runId run.proposedDiff run.filesModified) : Inv git (submitForApproval m o' run assessment).2 := by
  unfold submitForApproval
  dsimp only
  split
  · exact inv_putRun o o' run h hruns htrees ⟨rfl, fun _ => hcaptured, fun _ => hverified⟩
  · split
    · exact inv_settle o _ _ _ _ h hruns htrees (fun _ => hcaptured) (by decide) fun _ => hverified
    · exact inv_settle o _ _ _ _ h hruns htrees (fun _ => hcaptured) (by decide) fun _ => hverified

theorem inv_decide (c : Config File) (m : Moment) (o o' : AutoDevOrchestrator File) (run : AutoDevRun)
    (report : VerificationReport) (h : Inv git o) (hruns : o'.runs = o.runs)
    (htrees : ∀ id, id ≠ run.runId → SameTrees o.sandbox o'.sandbox id) (hverified : Verified run.transitions)
    (hcaptured : Captured git o'.sandbox run.runId run.proposedDiff run.filesModified) : Inv git (decide c m o' run report).2 := by
  unfold AutoDevOrchestrator.decide
  dsimp only
  split
  · exact inv_abandon o _ _ _ _ _ h hruns htrees (fun _ => hcaptured) (by decide) id
  · split
    · exact inv_abandon o _ _ _ _ _ h hruns htrees (fun _ => hcaptured) (by decide) id
    · split
      · exact inv_submitForApproval m o _ _ _ h hruns htrees hverified hcaptured
      · split
        · exact inv_abandon o _ _ _ _ _ h hruns htrees (fun _ => hcaptured) (by decide) id
        · exact inv_submitForApproval m o _ _ _ h hruns htrees hverified hcaptured

theorem inv_verify (c : Config File) (m : Moment) (o o' : AutoDevOrchestrator File) (run : AutoDevRun)
    (verification : List String → Except PyError VerificationReport) (h : Inv git o) (hruns : o'.runs = o.runs)
    (htrees : ∀ id, id ≠ run.runId → SameTrees o.sandbox o'.sandbox id)
    (hcaptured : Captured git o'.sandbox run.runId run.proposedDiff run.filesModified) : Inv git (verify c m o' run verification).2 := by
  have hverified : Verified (run.recordTransition .verifying "lint + test + regression").transitions :=
    (verified_recordTransition run _ _).mpr (.inr rfl)
  unfold verify
  dsimp only
  split
  · exact inv_abandon o _ _ _ _ _ h hruns htrees (fun _ => hcaptured) (by decide) id
  · exact inv_decide c m o _ _ _ h hruns htrees hverified hcaptured

/-! ## Building -/

theorem create_spec (s s' : Sandbox File) (runId : String) (added : Except PyError (Tree File))
    (h : s.create runId added = .ok s') :
    s.get? runId = none ∧
      ∃ head, s' = s.set runId { runId := runId, branchName := s!"autodev/{runId}", head := head, tree := head } := by
  unfold Sandbox.create at h
  split at h
  · cases h
  · next hnone =>
    obtain ⟨head, -, h⟩ := bind_eq_ok.mp h
    exact ⟨hnone, head, (pure_eq_ok.mp h).symm⟩

theorem requireHandle_spec (s : Sandbox File) (runId : String) (handle : WorktreeHandle File)
    (h : s.requireHandle runId = .ok handle) : s.get? runId = some handle := by
  unfold Sandbox.requireHandle at h
  split at h
  · cases h
  · next hs =>
    split at h
    · cases h
    · rw [hs, Except.ok.inj h]

theorem applyDiff_spec (git : Git File) (s s' : Sandbox File) (runId diff : String)
    (h : applyDiff git s runId diff = .ok s') :
    ∃ handle tree, s.get? runId = some handle ∧ git.apply handle.tree (patchText diff) = .ok tree ∧
      s' = s.set runId { handle with tree := tree } := by
  obtain ⟨handle, hhandle, h⟩ := bind_eq_ok.mp h
  obtain ⟨tree, htree, h⟩ := bind_eq_ok.mp h
  exact ⟨handle, tree, requireHandle_spec s runId handle hhandle, htree, (pure_eq_ok.mp h).symm⟩

theorem captureDiff_spec (git : Git File) (s s' : Sandbox File) (runId : String)
    (h : s.captureDiff git runId = .ok s') :
    ∃ handle files, s.get? runId = some handle ∧ git.diffHead handle.head handle.tree = .ok files ∧
      s' = s.set runId { handle with
        diffCaptured := some (diffText files), filesModified := parseModifiedFiles (diffText files) } := by
  obtain ⟨handle, hhandle, h⟩ := bind_eq_ok.mp h
  obtain ⟨files, hfiles, h⟩ := bind_eq_ok.mp h
  exact ⟨handle, files, requireHandle_spec s runId handle hhandle, hfiles, (pure_eq_ok.mp h).symm⟩

theorem inv_build (c : Config File) (m : Moment) (o : AutoDevOrchestrator File) (run : AutoDevRun)
    (added : Except PyError (Tree File)) (verification : List String → Except PyError VerificationReport)
    (h : Inv c.git o) (hrun : RunInv c.git o.sandbox run.runId run) :
    Inv c.git (build c m o run added verification).2 := by
  have hbuilding (hv : Verified (run.recordTransition .building "create worktree").transitions) :
      Captured c.git o.sandbox run.runId run.proposedDiff run.filesModified :=
    hrun.captured (((verified_recordTransition run _ _).mp hv).resolve_right (by decide))
  unfold build
  dsimp only
  split
  · exact inv_settle o _ _ _ _ h rfl (fun id _ => sameTrees_refl _ id) hbuilding (by decide) (fun hn => hn.elim)
  · next created hcreate =>
    obtain ⟨hnew, head, hcreated⟩ := create_spec _ _ _ _ hcreate
    -- The worktree is new, so this run has not been verified before.
    have hfirst (hv : Verified (run.recordTransition .building "create worktree").transitions) : False := by
      obtain ⟨handle, -, hhandle, -⟩ := hbuilding hv
      cases hhandle.symm.trans hnew
    have htrees (id : String) (hid : id ≠ run.runId) : SameTrees o.sandbox created id :=
      hcreated ▸ sameTrees_set_of_ne _ _ id _ hid
    split
    · exact inv_abandon o _ _ _ _ _ h rfl htrees (fun hv => (hfirst hv).elim) (by decide) id
    · next applied happly =>
      obtain ⟨handle, tree, hhandle, htree, happlied⟩ := applyDiff_spec _ _ _ _ _ happly
      have htrees (id : String) (hid : id ≠ run.runId) : SameTrees o.sandbox applied id :=
        sameTrees_trans _ _ _ id (htrees id hid) (happlied ▸ sameTrees_set_of_ne _ _ id _ hid)
      split
      · exact inv_abandon o _ _ _ _ _ h rfl htrees (fun hv => (hfirst hv).elim) (by decide) id
      · next captured hcapture =>
        obtain ⟨handle', files, hhandle', hfiles, hcaptured⟩ := captureDiff_spec _ _ _ _ hcapture
        have htrees (id : String) (hid : id ≠ run.runId) : SameTrees o.sandbox captured id :=
          sameTrees_trans _ _ _ id (htrees id hid) (hcaptured ▸ sameTrees_set_of_ne _ _ id _ hid)
        refine inv_verify c m o _ _ verification h rfl htrees ?_
        have hfresh : handle.tree = handle.head := by
          rw [hcreated, Dict.get?_set_self] at hhandle
          cases hhandle
          rfl
        have hbuilt : handle'.head = handle.head ∧ handle'.tree = tree := by
          rw [happlied, Dict.get?_set_self] at hhandle'
          cases hhandle'
          exact ⟨rfl, rfl⟩
        have hget : captured.get? run.runId = some { handle' with
            diffCaptured := some (diffText files), filesModified := parseModifiedFiles (diffText files) } := by
          rw [hcaptured]
          exact Dict.get?_set_self ..
        refine ⟨_, files, hget, ?_, hfiles, ?_⟩
        · rw [hbuilt.1, hbuilt.2, ← hfresh]
          exact htree
        · change ((captured.get? run.runId).map WorktreeHandle.filesModified).getD [] = _
          rw [hget]
          rfl

/-! ## Every operation -/

theorem inv_cleanup_if (s : Sandbox File) (b : Bool) (key id : String) :
    SameTrees s (if b then s.cleanup key else s) id := by
  cases b
  · exact sameTrees_refl s id
  · exact sameTrees_cleanup s key id

theorem inv_propose (m : Moment) (o : AutoDevOrchestrator File) (runId title rationale diff : String) (h : Inv git o) :
    Inv git (propose m o runId title rationale diff).2 := by
  unfold propose
  split
  · exact h
  · split
    · exact h
    · split
      · exact h
      · exact inv_settle o _ _ _ _ h rfl (fun id _ => sameTrees_refl _ id)
          (fun hv => by obtain ⟨t, ht, -⟩ := hv; cases ht) (by decide) (fun hn => hn.elim)

theorem inv_executeBuildAndVerify (c : Config File) (m : Moment) (o : AutoDevOrchestrator File) (runId : String)
    (added : Except PyError (Tree File)) (verification : List String → Except PyError VerificationReport) (h : Inv c.git o) :
    Inv c.git (executeBuildAndVerify c m o runId added verification).2 := by
  unfold executeBuildAndVerify
  split
  · exact h
  · next run hrun =>
    have hinv := h runId run hrun
    have hid := hinv.runId
    subst hid
    split
    · exact inv_settle o _ _ _ _ h rfl (fun id _ => sameTrees_refl _ id) hinv.captured (by decide) (fun hn => hn.elim)
    · split
      · exact h
      · exact inv_build c m o run added verification h hinv

theorem inv_resolveApproval (m : Moment) (o : AutoDevOrchestrator File) (runId : String) (approved : Bool)
    (actor reason : String) (h : Inv git o) : Inv git (resolveApproval m o runId approved actor reason).2 := by
  unfold resolveApproval
  split
  · exact h
  · next run hrun =>
    have hinv := h runId run hrun
    have hid := hinv.runId
    subst hid
    split
    · exact h
    · next hstate =>
      have hverified : Verified run.transitions := hinv.verified (by rw [not_ne_iff.mp hstate]; trivial)
      split
      · exact h
      · split
        · split
          · exact h
          · exact inv_settle o _ _ _ _ h rfl (fun id _ => sameTrees_refl _ id) hinv.captured (by decide)
              fun _ => hverified
        · split
          · exact h
          · exact inv_settle o _ _ _ _ h rfl (fun id _ => inv_cleanup_if _ _ _ id)
              (fun hv => captured_mono _ _ _ _ _ (inv_cleanup_if _ _ _ _) (hinv.captured hv)) (by decide)
              fun _ => hverified

theorem inv_finalizeMerge (m : Moment) (o : AutoDevOrchestrator File) (runId : String) (h : Inv git o) :
    Inv git (finalizeMerge m o runId).2 := by
  unfold finalizeMerge
  split
  · exact h
  · next run hrun =>
    have hinv := h runId run hrun
    have hid := hinv.runId
    subst hid
    split
    · exact inv_settle o _ _ _ _ h rfl (fun id _ => sameTrees_refl _ id) hinv.captured (by decide) (fun hn => hn.elim)
    · split
      · exact h
      · next hstate =>
        have hverified : Verified (run.recordTransition .merging "preparing branch").transitions :=
          (verified_recordTransition run _ _).mpr (.inl (hinv.verified (by rw [not_ne_iff.mp hstate]; trivial)))
        have hcaptured := hinv.captured (((verified_recordTransition run _ _).mp hverified).resolve_right (by decide))
        exact inv_settle o _ _ _ _ h rfl (fun id _ => inv_cleanup_if _ _ _ id)
          (fun _ => captured_mono _ _ _ _ _ (inv_cleanup_if _ _ _ _) hcaptured) (by decide) fun _ => hverified

theorem inv_cancel (o : AutoDevOrchestrator File) (runId reason : String) (h : Inv git o) :
    Inv git (cancel o runId reason).2 := by
  unfold cancel
  split
  · exact h
  · next run hrun =>
    have hinv := h runId run hrun
    have hid := hinv.runId
    subst hid
    split
    · exact h
    · exact inv_settle o _ _ _ _ h rfl (fun id _ => inv_cleanup_if _ _ _ id)
        (fun hv => captured_mono _ _ _ _ _ (inv_cleanup_if _ _ _ _) (hinv.captured hv)) (by decide)
        (fun hn => hn.elim)

theorem inv_apply (c : Config File) (m : Moment) (o : AutoDevOrchestrator File) (op : Operation File)
    (h : Inv c.git o) : Inv c.git (apply c m o op) := by
  cases op with
  | propose runId title rationale diff => exact inv_propose m o runId title rationale diff h
  | executeBuildAndVerify runId added verification => exact inv_executeBuildAndVerify c m o runId added verification h
  | resolveApproval runId approved actor reason => exact inv_resolveApproval m o runId approved actor reason h
  | finalizeMerge runId => exact inv_finalizeMerge m o runId h
  | cancel runId reason => exact inv_cancel o runId reason h
  | cleanupExpired => exact h

theorem reachable_inv (c : Config File) (o : AutoDevOrchestrator File) (h : Reachable c o) : Inv c.git o := by
  induction h with
  | start o hruns hsandbox =>
    intro id run hrun
    rw [hruns] at hrun
    cases hrun
  | step o m op ho hop ih => exact inv_apply c m o op ih

/-- **What a run changes is checked exactly when git's output spells all of it.** -/
theorem changes_checked_iff (c : Config File) (hgit : c.git.Documented) (o : AutoDevOrchestrator File)
    (ho : Reachable c o) (id : String) (run : AutoDevRun) (hrun : o.runs.get? id = some run)
    (hverified : run.state = .merged ∨ Verified run.transitions) :
    ∃ handle files, o.sandbox.get? id = some handle ∧
      c.git.apply handle.head (patchText run.proposedDiff) = .ok handle.tree ∧
      c.git.diffHead handle.head handle.tree = .ok files ∧
      ((∀ path, Touched handle.head handle.tree path → path ∈ run.filesModified) ↔
        ∀ path, Touched handle.head handle.tree path → Reported files handle.head path) := by
  have hinv := reachable_inv c o ho id run hrun
  have hverified : Verified run.transitions :=
    hverified.elim (fun hm => hinv.verified (by rw [hm]; trivial)) fun hv => hv
  obtain ⟨handle, files, hhandle, happly, hfiles, hmodified⟩ := hinv.captured hverified
  refine ⟨handle, files, hinv.runId ▸ hhandle, happly, hfiles, ?_⟩
  rw [hmodified]
  exact forall₂_congr fun path _ => mem_files_iff c.git hgit handle.head handle.tree files hfiles path

/-! ## A new file -/

/-- The edit of a tracked page. -/
def pageEdit : String := "--- a/docs/a.md\n+++ b/docs/a.md\n@@ -1 +1 @@\n-x\n+y\n"

/-- The same edit, and an environment file that is not there yet. -/
def secretPatch : String := pageEdit ++ "--- /dev/null\n+++ b/.env\n@@ -0,0 +1 @@\n+z\n"

def pageDiff : FileDiff where
  path := "docs/a.md"
  side := .modified
  extended := ["diff --git a/docs/a.md b/docs/a.md"]
  hunks := ["@@ -1 +1 @@", "-x", "+y"]

/-- Git in a repository that tracks one page, on these two patches. -/
def pageGit : Git String where
  apply tree patch :=
    if patch = pageEdit then .ok (tree.set "docs/a.md" "y")
    else if patch = secretPatch then
      .ok ((tree.set "docs/a.md" "y").set ".env" "z")
    else .error (.other "CalledProcessError" "corrupt patch")
  diffHead head work :=
    if (head.get? "docs/a.md").isSome ∧ head.get? "docs/a.md" ≠ work.get? "docs/a.md" then .ok [pageDiff]
    else .ok []

theorem pageGit_documented : pageGit.Documented where
  tracked head work files h d hd := by
    simp only [pageGit] at h
    split at h <;> cases h
    · next hp => exact List.mem_singleton.mp hd ▸ hp.1
    · cases hd
  silent head work files h d hd := by
    simp only [pageGit] at h
    split at h <;> cases h
    · rw [List.mem_singleton.mp hd]
      decide
    · cases hd

def pageConfig : Config String where
  git := pageGit
  risk := { modifier := Evaluation.boundaries, repr := fun _ => "[...]" }

/-- Propose, build on a tree with the page in it, pass the verification and merge. -/
def mergedRun (patch : String) : AutoDevOrchestrator String :=
  let o : AutoDevOrchestrator String := { budget := { current := { date := 0 } } }
  let o := apply pageConfig { now := 0 } o (.propose "r1" "docs" "typo" patch)
  let o := apply pageConfig { now := 1 } o
    (.executeBuildAndVerify "r1" (.ok [("docs/a.md", "x")]) fun _ => .ok { stages := [⟨"lint", "skipped"⟩] })
  apply pageConfig { now := 2 } o (.finalizeMerge "r1")

theorem mergedRun_reachable (patch : String) : Reachable pageConfig (mergedRun patch) := by
  unfold mergedRun
  refine .step _ _ _ (.step _ _ _ (.step _ _ _ (.start _ rfl rfl) ?_) ?_) ?_
  · rfl
  · trivial
  · trivial

theorem page_edit_merges : ((mergedRun pageEdit).runs.get? "r1").map (·.state) = some .merged := by decide +kernel

theorem page_edit_checked :
    ∃ run, (mergedRun pageEdit).runs.get? "r1" = some run ∧
      ∃ handle files, (mergedRun pageEdit).sandbox.get? "r1" = some handle ∧
        pageGit.apply handle.head (patchText run.proposedDiff) = .ok handle.tree ∧
        pageGit.diffHead handle.head handle.tree = .ok files ∧
        ((∀ path, Touched handle.head handle.tree path → path ∈ run.filesModified) ↔
          ∀ path, Touched handle.head handle.tree path → Reported files handle.head path) := by
  obtain ⟨run, hrun, hstate⟩ := Option.map_eq_some_iff.mp page_edit_merges
  exact ⟨run, hrun, changes_checked_iff pageConfig pageGit_documented _ (mergedRun_reachable pageEdit) "r1" run hrun
    (.inl hstate)⟩

/-- No one may edit `.env`, but the run that creates it is approved on its other file and merged. -/
theorem created_secret_merged_unchecked :
    Reachable pageConfig (mergedRun secretPatch) ∧
      ((mergedRun secretPatch).runs.get? "r1").map (fun run => (run.state, run.filesModified)) =
        some (.merged, ["docs/a.md"]) ∧
      ((mergedRun secretPatch).sandbox.get? "r1").map (fun handle =>
        (handle.head.get? ".env", handle.tree.get? ".env")) = some (none, some "z") ∧
      (Evaluation.SelfModifier.verdict Evaluation.boundaries ".env").tier = .immutable := by
  refine ⟨mergedRun_reachable secretPatch, ?_⟩
  decide +kernel

end Occp.Autodev
