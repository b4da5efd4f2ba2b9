import Mathlib.Data.List.Pairwise
import Mathlib.Data.String.Basic
import Occp.Policy.AuditChain

/-!
# The persisted audit trail (`store/audit_store.py`)

The store reads the trail back by timestamp, and the engine verifies it from the empty
hash on. That works while nothing but the whole trail is pruned, an engine is started
anew after that, and no timestamp comes twice or too late.
-/

namespace Occp.Policy

open Occp.Lib

namespace AuditStore

/-- What `list_all` may return: the order of equal timestamps is left open. -/
def Listing (rows listed : List AuditEntry) : Prop :=
  listed.Perm rows ∧ listed.Pairwise fun e f => e.timestamp ≤ f.timestamp

def newest (rows : List AuditEntry) : List AuditEntry :=
  rows.filter fun e => rows.all fun f => decide (f.timestamp ≤ e.timestamp)

/-- `get_last`, when the database picks this one of the newest rows. -/
def getLast (rows : List AuditEntry) (pick : Nat) : Option AuditEntry :=
  (newest rows)[pick % (newest rows).length]?

def pruneBefore (rows : List AuditEntry) (cutoffIso : String) : List AuditEntry :=
  rows.filter fun e => decide (¬ e.timestamp < cutoffIso)

end AuditStore

open AuditStore PolicyEngine

/-- The engine at work and the rows of the audit store. -/
structure Trail where
  engine : PolicyEngine := {}
  rows : List AuditEntry := []

namespace Trail

inductive Event where
  | audit (id timestamp actor action taskId : String) (detail : Option (Dict Value))
  | restart (pick : Nat)
  | prune (cutoffIso : String)

def step (py : PyLib) (s : Trail) : Event → Trail
  | .audit id timestamp actor action taskId detail =>
    let (entry, engine) := s.engine.audit py id timestamp actor action taskId detail
    { engine, rows := s.rows ++ [entry] }
  | .restart pick => { s with engine := ({} : PolicyEngine).restarted (getLast s.rows pick) }
  | .prune cutoffIso => { s with rows := pruneBefore s.rows cutoffIso }

/-- What keeps the trail in one piece: a new entry is later than all there are, and does not follow
on entries that are gone. Pruning takes all rows or none. -/
def Sound (s : Trail) : Event → Prop
  | .audit _ timestamp _ _ _ _ => (∀ e ∈ s.rows, e.timestamp < timestamp) ∧ (s.rows = [] → s.engine.auditChain = [])
  | .restart _ => True
  | .prune cutoffIso => (∀ e ∈ s.rows, ¬ e.timestamp < cutoffIso) ∨ ∀ e ∈ s.rows, e.timestamp < cutoffIso

/-- The rows are a chain in the order of time, and the engine is at its end. -/
structure InOnePiece (py : PyLib) (s : Trail) : Prop where
  chained : Chained (stamp py) AuditEntry.hash "" s.rows
  later : s.rows.Pairwise fun e f => e.timestamp < f.timestamp
  atEnd : s.rows ≠ [] → tip AuditEntry.hash "" s.engine.auditChain = tip AuditEntry.hash "" s.rows

variable {py : PyLib}

/-- Rows in the order of time can be listed in no other order. -/
theorem listing_eq {rows listed : List AuditEntry} (h : rows.Pairwise fun e f => e.timestamp < f.timestamp)
    (hlisting : Listing rows listed) : listed = rows := by
  obtain ⟨hperm, hsorted⟩ := hlisting
  refine hperm.eq_of_pairwise (fun a b ha hb hab hba => ?_) hsorted (h.imp le_of_lt)
  by_contra hne
  have : Std.Symm fun e f : AuditEntry => e.timestamp ≠ f.timestamp := ⟨fun _ _ => Ne.symm⟩
  exact List.Pairwise.forall (h.imp ne_of_lt) (hperm.mem_iff.mp ha) hb hne (le_antisymm hab hba)

theorem getLast_eq {rows : List AuditEntry} (h : rows.Pairwise fun e f => e.timestamp < f.timestamp) (pick : Nat) :
    AuditStore.getLast rows pick = rows.getLast? := by
  rcases List.eq_nil_or_concat' rows with rfl | ⟨earlier, last, rfl⟩
  · rfl
  · have hlater : ∀ e ∈ earlier, e.timestamp < last.timestamp := fun e he =>
      (List.pairwise_append.mp h).2.2 e he last (List.mem_singleton.mpr rfl)
    have hearlier : earlier.filter (fun e => (earlier ++ [last]).all fun f => decide (f.timestamp ≤ e.timestamp)) = [] := by
      rw [List.filter_eq_nil_iff]
      intro e he hall
      have := List.all_eq_true.mp hall last (by simp)
      exact absurd (hlater e he) (not_lt.mpr (by simpa using this))
    have hlast : (earlier ++ [last]).all (fun f => decide (f.timestamp ≤ last.timestamp)) = true := by
      rw [List.all_eq_true]
      intro f hf
      rcases List.mem_append.mp hf with hf | hf
      · exact decide_eq_true (hlater f hf).le
      · rw [List.mem_singleton.mp hf]
        exact decide_eq_true le_rfl
    have hnewest : newest (earlier ++ [last]) = [last] := by
      rw [newest, List.filter_append, hearlier, List.nil_append]
      exact List.filter_cons_of_pos hlast
    rw [AuditStore.getLast, hnewest]
    simp [Nat.mod_one]

/-! ## The steps -/

theorem InOnePiece.audit {s : Trail} (h : InOnePiece py s) {id timestamp actor action taskId : String}
    {detail : Option (Dict Value)} (hlater : ∀ e ∈ s.rows, e.timestamp < timestamp)
    (hgone : s.rows = [] → s.engine.auditChain = []) :
    InOnePiece py (s.step py (.audit id timestamp actor action taskId detail)) := by
  obtain ⟨entry, hengine, hentry, htime, hhash⟩ :=
    appendAudit_spec py s.engine id timestamp actor action taskId (detail.getD [])
  have hend : tip AuditEntry.hash "" s.engine.auditChain = tip AuditEntry.hash "" s.rows := by
    by_cases hrows : s.rows = []
    · rw [hrows, hgone hrows]
    · exact h.atEnd hrows
  have hstep : s.step py (.audit id timestamp actor action taskId detail) =
      { engine := (s.engine.audit py id timestamp actor action taskId detail).2, rows := s.rows ++ [entry] } := by
    simp only [step, PolicyEngine.audit, hentry]
  have hchain : (s.engine.audit py id timestamp actor action taskId detail).2.auditChain =
      s.engine.auditChain ++ [entry] := by
    simp only [PolicyEngine.audit, hengine]
  rw [hstep]
  refine ⟨?_, ?_, fun _ => ?_⟩
  · rw [chained_concat]
    exact ⟨h.chained, by rw [← hend, hhash]⟩
  · rw [List.pairwise_append]
    refine ⟨h.later, List.pairwise_singleton _ _, fun e he f hf => ?_⟩
    rw [List.mem_singleton.mp hf, htime]
    exact hlater e he
  · simp only [hchain, tip_concat]

theorem InOnePiece.restart {s : Trail} (h : InOnePiece py s) (pick : Nat) : InOnePiece py (s.step py (.restart pick)) := by
  refine ⟨h.chained, h.later, fun hrows => ?_⟩
  obtain ⟨last, hlast⟩ := Option.isSome_iff_exists.mp (List.getLast?_isSome.mpr hrows)
  have hengine : (s.step py (.restart pick)).engine = { auditChain := [last] } := by
    simp only [step, getLast_eq h.later]
    rw [show s.rows.getLast? = some last from hlast]
    rfl
  rw [hengine]
  simp only [tip, hlast]
  rfl

theorem InOnePiece.prune {s : Trail} (h : InOnePiece py s) {cutoffIso : String}
    (hall : (∀ e ∈ s.rows, ¬ e.timestamp < cutoffIso) ∨ ∀ e ∈ s.rows, e.timestamp < cutoffIso) :
    InOnePiece py (s.step py (.prune cutoffIso)) := by
  rcases hall with hnone | hall
  · have hkept : pruneBefore s.rows cutoffIso = s.rows :=
      List.filter_eq_self.mpr fun e he => decide_eq_true (hnone e he)
    rw [step, hkept]
    exact h
  · have hgone : pruneBefore s.rows cutoffIso = [] :=
      List.filter_eq_nil_iff.mpr fun e he hkept => of_decide_eq_true hkept (hall e he)
    rw [step, hgone]
    exact ⟨trivial, .nil, fun hrows => absurd rfl hrows⟩

/-- **The persisted trail verifies after every run of sound steps**, in any order that the store may
list it in. -/
theorem persisted_trail_verifies (py : PyLib) (events : List Event) (h : Admitted (step py) Sound {} events)
    (listed : List AuditEntry) (hlisting : Listing (run (step py) {} events).rows listed) :
    verifyEntries py listed = true := by
  have hpiece : InOnePiece py (run (step py) {} events) := by
    refine h.invariant (InOnePiece py) ⟨trivial, .nil, fun hrows => absurd rfl hrows⟩ fun s e hs hsound => ?_
    cases e with
    | audit id timestamp actor action taskId detail => exact hs.audit hsound.1 hsound.2
    | restart pick => exact hs.restart pick
    | prune cutoffIso => exact hs.prune hsound
  rw [listing_eq hpiece.later hlisting, verifyEntries, verifyFrom_iff]
  exact hpiece.chained

/-- Two entries, a restart and a third one. -/
def sampleEvents : List Event :=
  [.audit "e1" "2026-01-01" "henry" "start" "" none, .audit "e2" "2026-01-02" "henry" "work" "" none, .restart 0,
    .audit "e3" "2026-01-03" "henry" "stop" "" none]

instance (s : Trail) (e : Event) : Decidable (Sound s e) :=
  match e with
  | .audit _ timestamp _ _ _ _ =>
    haveI : Decidable (s.engine.auditChain = []) := decidable_of_iff (s.engine.auditChain.isEmpty = true) List.isEmpty_iff
    haveI : Decidable (s.rows = []) := decidable_of_iff (s.rows.isEmpty = true) List.isEmpty_iff
    inferInstanceAs (Decidable ((∀ e ∈ s.rows, e.timestamp < timestamp) ∧ (s.rows = [] → s.engine.auditChain = [])))
  | .restart _ => .isTrue trivial
  | .prune cutoffIso =>
    inferInstanceAs (Decidable ((∀ e ∈ s.rows, ¬ e.timestamp < cutoffIso) ∨ ∀ e ∈ s.rows, e.timestamp < cutoffIso))

theorem sample_trail_verifies : verifyEntries sampleLib (run (step sampleLib) {} sampleEvents).rows = true :=
  persisted_trail_verifies sampleLib sampleEvents (by decide +kernel) _ ⟨.refl _, by decide +kernel⟩

theorem pruned_trail_is_refused :
    ¬ ∀ (py : PyLib) (events : List Event) (listed : List AuditEntry),
      Listing (run (step py) {} events).rows listed → verifyEntries py listed = true := by
  intro h
  have hverifies := h sampleLib (sampleEvents ++ [.prune "2026-01-02"]) _ ⟨.refl _, by decide +kernel⟩
  revert hverifies
  decide +kernel

end Trail

end Occp.Policy
