import Occp.Lib.Digests
import Occp.Lib.HashChain
import Occp.Security.BreakGlass

/-!
# The break-glass audit log

A hash covers the fields of an entry but its detail, joined by bars. A change that leaves the joined text as it is
is not seen, and every other one is.
-/

namespace Occp.Security

open Occp.Lib

variable {lib : BreakGlassLib}

/-- What `compute_hash` makes of an entry and of the hash before it. -/
def stamp (lib : BreakGlassLib) (before : String) (e : BreakGlassAuditEntry) : String :=
  lib.sha256 (e.text lib ++ "|" ++ before)

theorem computeHash_hash (e : BreakGlassAuditEntry) (before : String) : (e.computeHash lib before).hash = stamp lib before e := by
  simp [BreakGlassAuditEntry.computeHash, stamp, toString]

/-- The same hashed text and the same stored hash. -/
def SameMark (lib : BreakGlassLib) (e e' : BreakGlassAuditEntry) : Prop := e.text lib = e'.text lib ∧ e.hash = e'.hash

namespace BreakGlassProtocol

theorem verifyFrom_iff (before : String) (entries : List BreakGlassAuditEntry) :
    verifyFrom lib before entries = true ↔ Chained (stamp lib) BreakGlassAuditEntry.hash before entries := by
  induction entries generalizing before with
  | nil => simp [verifyFrom, Chained]
  | cons e entries ih =>
    rw [verifyFrom, Chained, ← ih, computeHash_hash, eq_comm (a := e.hash)]
    by_cases h : stamp lib before e = e.hash <;> simp [h]

/-! ## The log of a run -/

variable {p : BreakGlassProtocol}

theorem verify_appendAudit (h : p.verifyAuditChain lib = true) (now : Int) (event tokenId actor : String)
    (detail : Dict Value) : (p.appendAudit lib now event tokenId actor detail).verifyAuditChain lib = true := by
  unfold verifyAuditChain at h ⊢
  rw [verifyFrom_iff] at h ⊢
  unfold appendAudit
  refine chained_concat.mpr ⟨h, ?_⟩
  rw [computeHash_hash]
  unfold tip
  cases p.auditChain.getLast? <;> rfl

theorem verify_recordApproval (h : p.verifyAuditChain lib = true) (now : Int) (tokenId approver : String)
    (token : BreakGlassToken) : (p.recordApproval lib now tokenId approver token).2.verifyAuditChain lib = true := by
  unfold recordApproval
  dsimp only
  split
  · apply verify_appendAudit
    apply verify_appendAudit
    exact h
  · apply verify_appendAudit
    exact h

theorem verify_step (h : p.verifyAuditChain lib = true) (call : BreakGlassCall) :
    (p.step lib call).verifyAuditChain lib = true := by
  cases call with
  | request now tokenId requester scope reason durationMinutes =>
    rcases step_request lib p now tokenId requester scope reason durationMinutes with hsame | ⟨_, _, -, -, -, hdone⟩
    · rw [hsame]
      exact h
    · rw [hdone]
      exact verify_appendAudit h ..
  | approve now tokenId approver =>
    rcases step_approve lib p now tokenId approver with hsame | ⟨token, -, hdone⟩
    · rw [hsame]
      exact h
    · rw [hdone]
      exact verify_recordApproval h ..
  | revoke now tokenId revokedBy =>
    rcases step_revoke lib p now tokenId revokedBy with ⟨hsame, -⟩ | ⟨_, _, -, hdone⟩
    · rw [hsame]
      exact h
    · rw [hdone]
      exact verify_appendAudit h ..
  | cleanupExpired now =>
    change (cleanupExpired lib p now).verifyAuditChain lib = true
    unfold cleanupExpired
    refine List.foldlRecOn (motive := fun q => q.verifyAuditChain lib = true) p.tokens (expireToken lib now) h
      fun q hq e _ => ?_
    rcases expireToken_cases q e with hsame | ⟨_, hdone⟩
    · rw [hsame]
      exact hq
    · rw [hdone]
      exact verify_appendAudit hq ..

/-- The log of a new protocol after any calls. -/
theorem verify_run {required maxDuration : Int} {approvers : List String} (hnew : new required maxDuration approvers = .ok p)
    (calls : List BreakGlassCall) : (run (step lib) p calls).verifyAuditChain lib = true := by
  obtain ⟨-, -, -, rfl⟩ := new_eq_ok hnew
  exact run_invariant (fun p => verifyAuditChain lib p = true) (fun p call h => verify_step h call) rfl calls

/-! ## Changed logs -/

/-- The texts that are hashed along a log. -/
def hashedTexts (lib : BreakGlassLib) (entries : List BreakGlassAuditEntry) : List String :=
  (links BreakGlassAuditEntry.hash "" entries).map fun l => l.2.text lib ++ "|" ++ l.1

/-- The last bar of a text splits it. -/
theorem eq_of_last_bar {text text' before before' : String} (h : text ++ "|" ++ before = text' ++ "|" ++ before')
    (hbefore : '|' ∉ before.toList) (hbefore' : '|' ∉ before'.toList) : text = text' ∧ before = before' := by
  have hchars : text.toList ++ '|' :: before.toList = text'.toList ++ '|' :: before'.toList := by
    simpa using congrArg String.toList h
  obtain ⟨between, htext, hrest⟩ | ⟨between, htext, hrest⟩ := List.append_eq_append_iff.mp hchars
  · cases between with
    | nil => exact ⟨String.toList_injective (by simpa using htext.symm), String.toList_injective (by simpa using hrest)⟩
    | cons c between =>
      obtain ⟨-, hlater⟩ := List.cons.inj hrest
      exact absurd (by simp [hlater]) hbefore
  · cases between with
    | nil => exact ⟨String.toList_injective (by simpa using htext), String.toList_injective (by simpa using hrest.symm)⟩
    | cons c between =>
      obtain ⟨-, hlater⟩ := List.cons.inj hrest
      exact absurd (by simp [hlater]) hbefore'

theorem bar_notMem (hhex : HexDigest lib.sha256) {entries : List BreakGlassAuditEntry}
    (h : Chained (stamp lib) BreakGlassAuditEntry.hash "" entries) :
    ∀ l ∈ links BreakGlassAuditEntry.hash "" entries, '|' ∉ l.1.toList := by
  intro l hl
  rcases h.before_stamped l hl with hstart | ⟨before, e, hstamped⟩
  · simp [hstart]
  · rw [hstamped]
    intro hbar
    exact absurd (hhex.digits _ _ hbar) (by decide)

/-- Two logs that verify, with one last hash, have the same texts and hashes. -/
theorem sameMark_of_verify {entries entries' : List BreakGlassAuditEntry} (hhex : HexDigest lib.sha256)
    (hcoll : CollisionFree lib.sha256 (hashedTexts lib entries ++ hashedTexts lib entries'))
    (h : Chained (stamp lib) BreakGlassAuditEntry.hash "" entries)
    (h' : Chained (stamp lib) BreakGlassAuditEntry.hash "" entries')
    (hlast : tip BreakGlassAuditEntry.hash "" entries = tip BreakGlassAuditEntry.hash "" entries') :
    List.Forall₂ (SameMark lib) entries entries' := by
  have hstart : ∀ before e, stamp lib before e ≠ "" := fun _ _ => hhex.ne_empty _
  refine forall₂_of_tip_eq (fun l hl l' hl' heq => ?_) hstart h h' hlast
  have htext : l.2.text lib ++ "|" ++ l.1 = l'.2.text lib ++ "|" ++ l'.1 :=
    hcoll _ (List.mem_append_left _ (List.mem_map_of_mem hl)) _ (List.mem_append_right _ (List.mem_map_of_mem hl')) heq
  obtain ⟨hsame, hbefore⟩ := eq_of_last_bar htext (bar_notMem hhex h l hl) (bar_notMem hhex h' l' hl')
  exact ⟨hbefore, hsame, by rw [h.mark_eq l hl, h'.mark_eq l' hl', heq]⟩

/-- **Which changes are seen.** A changed log with the last hash of a run's log fails to verify just when some
joined text or stored hash is another. -/
theorem change_detected_iff {required maxDuration : Int} {approvers : List String}
    (hnew : new required maxDuration approvers = .ok p) (calls : List BreakGlassCall) (changed : List BreakGlassAuditEntry)
    (hlast : tip BreakGlassAuditEntry.hash "" changed = tip BreakGlassAuditEntry.hash "" (run (step lib) p calls).auditChain)
    (hhex : HexDigest lib.sha256)
    (hcoll : CollisionFree lib.sha256
      (hashedTexts lib (run (step lib) p calls).auditChain ++ hashedTexts lib changed)) :
    ({ run (step lib) p calls with auditChain := changed }.verifyAuditChain lib = true →
        changed = (run (step lib) p calls).auditChain) ↔
      (changed = (run (step lib) p calls).auditChain ∨
        ¬ List.Forall₂ (SameMark lib) (run (step lib) p calls).auditChain changed) := by
  have hlog : Chained (stamp lib) BreakGlassAuditEntry.hash "" (run (step lib) p calls).auditChain :=
    (verifyFrom_iff "" _).mp (verify_run hnew calls)
  have hverify : { run (step lib) p calls with auditChain := changed }.verifyAuditChain lib = true ↔
      List.Forall₂ (SameMark lib) (run (step lib) p calls).auditChain changed := by
    unfold verifyAuditChain
    rw [verifyFrom_iff]
    constructor
    · intro hchanged
      exact sameMark_of_verify hhex hcoll hlog hchanged hlast.symm
    · intro hmarks
      refine hlog.of_forall₂ (fun e e' h before => ?_) (fun e e' h => h.2) hmarks
      unfold stamp
      rw [h.1]
  rw [hverify, imp_iff_or_not]

/-! ## Samples -/

/-- `isoformat` on the first day of 1970, for whole seconds in UTC. -/
def sampleIsoformat (d : DateTime) : String :=
  let two (n : Int) : String := (if n < 10 then "0" else "") ++ toString n
  let seconds := d.instant / 1000000
  s!"1970-01-01T{two (seconds / 3600)}:{two (seconds / 60 % 60)}:{two (seconds % 60)}+00:00"

def sampleLib : BreakGlassLib := { isoformat := sampleIsoformat, sha256 := sampleDigest }

example : sampleIsoformat { instant := 3661000000 } = "1970-01-01T01:01:01+00:00" := by decide +kernel

def sampleProtocol : BreakGlassProtocol := { requiredApprovals := 2, maxDuration := 60, authorizedApprovers := [] }

def sampleCalls : List BreakGlassCall :=
  [.request 0 "t1" "henry" "deploy" "outage" 30, .approve 60000000 "t1" "ines"]

def sampleLog : List BreakGlassAuditEntry := (run (step sampleLib) sampleProtocol sampleCalls).auditChain

/-- The log without any detail. -/
def strippedLog : List BreakGlassAuditEntry := sampleLog.map fun e => { e with detail := [] }

theorem strippedLog_ne : strippedLog ≠ sampleLog := by
  intro h
  have hdetails : strippedLog.map (fun e => e.detail.length) = sampleLog.map fun e => e.detail.length := by rw [h]
  revert hdetails
  decide +kernel

theorem stripped_log_detected_iff :
    ({ run (step sampleLib) sampleProtocol sampleCalls with auditChain := strippedLog }.verifyAuditChain sampleLib = true →
        strippedLog = sampleLog) ↔
      (strippedLog = sampleLog ∨ ¬ List.Forall₂ (SameMark sampleLib) sampleLog strippedLog) :=
  have hnew : new 2 60 [] = .ok sampleProtocol := rfl
  change_detected_iff hnew sampleCalls strippedLog (by decide +kernel) sampleDigest_hex (by decide +kernel)

/-- A log without its details verifies. -/
theorem stripped_log_verifies :
    ¬ ∀ (lib : BreakGlassLib) (required maxDuration : Int) (approvers : List String) (p : BreakGlassProtocol)
        (calls : List BreakGlassCall) (changed : List BreakGlassAuditEntry),
      HexDigest lib.sha256 → new required maxDuration approvers = .ok p →
      changed.length = (run (step lib) p calls).auditChain.length →
      tip BreakGlassAuditEntry.hash "" changed = tip BreakGlassAuditEntry.hash "" (run (step lib) p calls).auditChain →
      CollisionFree lib.sha256 (hashedTexts lib (run (step lib) p calls).auditChain ++ hashedTexts lib changed) →
      { run (step lib) p calls with auditChain := changed }.verifyAuditChain lib = true →
      changed = (run (step lib) p calls).auditChain := by
  intro h
  exact strippedLog_ne (h sampleLib 2 60 [] sampleProtocol sampleCalls strippedLog sampleDigest_hex rfl
    (by decide +kernel) (by decide +kernel) (by decide +kernel) (by decide +kernel))

end BreakGlassProtocol

end Occp.Security
