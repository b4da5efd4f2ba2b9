import Mathlib.Data.List.Induction
import Occp.Lib.Runs
import Occp.Store.AuditMerkle

/-!
# The published roots and the log

The ranges of the published roots follow on one another, from the first entry on. The
hash of a root is that of the whole log up to the end of its range, and not of the
entries in the range alone.
-/

namespace Occp.Store

open Occp.Lib MerkleAuditStore

namespace MerkleAuditStore

/-- A call, with what it reads off the clock. -/
inductive Call where
  | addEntry (data : String) (clock : Clock)
  | forcePublish (clock : Clock)

variable (sha256 : String → String)

def step (s : MerkleAuditStore) : Call → MerkleAuditStore
  | .addEntry data clock => (s.addEntry sha256 data clock).2
  | .forcePublish clock => (s.forcePublish sha256 clock).2

def added : List Call → List String
  | [] => []
  | .addEntry data _ :: calls => data :: added calls
  | .forcePublish _ :: calls => added calls

def init (start : Rat) : MerkleAuditStore := { lastPublishTime := start }

def covered (roots : List PublishedRoot) : Nat :=
  match roots.getLast? with
  | some root => root.entryCount
  | none => 0

/-- What a root records, when these were published before it. -/
structure Continues (log : List String) (before : List PublishedRoot) (root : PublishedRoot) : Prop where
  sequence : root.sequenceNumber = before.length
  first : root.firstEntryIndex = covered before
  last : root.lastEntryIndex = (root.entryCount : Int) - 1
  forward : covered before ≤ root.entryCount
  logged : root.entryCount ≤ log.length
  hash : root.rootHash = (MerkleTree.ofEntries sha256 (log.take root.entryCount)).root sha256

/-- The counters agree with the log, and every root continues the ones before it. -/
structure Aligned (log : List String) (s : MerkleAuditStore) : Prop where
  leaves : s.tree.leaves = log.map (hashLeaf sha256)
  total : s.totalEntries = log.length
  unpublished : covered s.publishedRoots + s.entriesSincePublish = log.length
  roots : ∀ before root after, s.publishedRoots = before ++ root :: after → Continues sha256 log before root

variable {sha256}

@[simp] theorem covered_append_singleton (roots : List PublishedRoot) (root : PublishedRoot) :
    covered (roots ++ [root]) = root.entryCount := by
  simp [covered]

theorem Continues.grow {log : List String} {before : List PublishedRoot} {root : PublishedRoot}
    (h : Continues sha256 log before root) (data : String) : Continues sha256 (log ++ [data]) before root :=
  { h with
    logged := by
      have := h.logged
      simp; omega
    hash := by rw [h.hash, List.take_append_of_le_length h.logged] }

theorem Aligned.init (start : Rat) : Aligned sha256 [] (init start) where
  leaves := rfl
  total := rfl
  unpublished := rfl
  roots := by
    intro before root after h
    simp [MerkleAuditStore.init] at h

theorem Aligned.publishRoot {log : List String} {s : MerkleAuditStore} (h : Aligned sha256 log s) (clock : Clock) :
    Aligned sha256 log (s.publishRoot sha256 clock).2 := by
  have hcount := h.unpublished
  have htotal := h.total
  refine ⟨h.leaves, h.total, ?_, ?_⟩
  · simp [MerkleAuditStore.publishRoot, htotal]
  · intro before root after hsplit
    rcases split_concat hsplit with ⟨rfl, rfl⟩ | ⟨rest, hrest⟩
    · -- The root is the one published now.
      refine ⟨rfl, ?_, rfl, by simp only; omega, by simp only; omega, ?_⟩
      · simp only
        omega
      · simp only [htotal, List.take_length]
        rw [MerkleTree.root, MerkleTree.root, MerkleTree.ofEntries_leaves, h.leaves]
    · exact h.roots before root rest hrest

theorem Aligned.addEntry {log : List String} {s : MerkleAuditStore} (h : Aligned sha256 log s) (data : String)
    (clock : Clock) : Aligned sha256 (log ++ [data]) (s.addEntry sha256 data clock).2 := by
  have hcounted : Aligned sha256 (log ++ [data]) { s with
      tree := (s.tree.addEntry sha256 data).2
      totalEntries := s.totalEntries + 1
      entriesSincePublish := s.entriesSincePublish + 1 } := by
    have hcount := h.unpublished
    refine ⟨?_, ?_, ?_, ?_⟩
    · simp [MerkleTree.addEntry, h.leaves]
    · simp [h.total]
    · simp only [List.length_append, List.length_singleton]
      omega
    · intro before root after hsplit
      exact (h.roots before root after hsplit).grow data
  unfold MerkleAuditStore.addEntry
  simp only
  split
  · exact hcounted.publishRoot clock
  · exact hcounted

/-- After a call, fewer entries are unpublished than the threshold. -/
theorem unpublished_step (s : MerkleAuditStore) (call : Call) :
    (step sha256 s call).entriesSincePublish < publishEntryThreshold := by
  cases call with
  | forcePublish clock => simp [step, forcePublish, MerkleAuditStore.publishRoot, publishEntryThreshold]
  | addEntry data clock =>
    simp only [step, MerkleAuditStore.addEntry]
    split
    · simp [MerkleAuditStore.publishRoot, publishEntryThreshold]
    · next hkeep =>
      simp only [shouldPublish, Bool.or_eq_true, decide_eq_true_eq, not_or] at hkeep
      simp only
      omega

theorem added_append (calls calls' : List Call) : added (calls ++ calls') = added calls ++ added calls' := by
  fun_induction added calls with
  | case1 => rfl
  | case2 data clock calls ih => simp [added, ih]
  | case3 clock calls ih => simp [added, ih]

theorem aligned_run (sha256 : String → String) (start : Rat) (calls : List Call) :
    Aligned sha256 (added calls) (run (step sha256) (init start) calls) := by
  induction calls using List.reverseRecOn with
  | nil => exact .init start
  | append_singleton calls call ih =>
    rw [run_append, added_append]
    cases call with
    | addEntry data clock => exact ih.addEntry data clock
    | forcePublish clock =>
      rw [show added [Call.forcePublish clock] = [] from rfl, List.append_nil]
      exact ih.publishRoot clock

/-- Every entry that the roots cover is in the range of one of them. -/
theorem exists_range {log : List String} {roots : List PublishedRoot}
    (h : ∀ before root after, roots = before ++ root :: after → Continues sha256 log before root) {i : Nat}
    (hi : i < covered roots) : ∃ root ∈ roots, root.firstEntryIndex ≤ i ∧ i ≤ root.lastEntryIndex := by
  induction roots using List.reverseRecOn with
  | nil => simp [covered] at hi
  | append_singleton roots root ih =>
    have hroot := h roots root [] rfl
    rw [covered_append_singleton] at hi
    by_cases hearlier : i < covered roots
    · obtain ⟨root', hmem, hrange⟩ := ih (fun before r after hsplit => by
        exact h before r (after ++ [root]) (by rw [hsplit]; simp)) hearlier
      exact ⟨root', List.mem_append_left _ hmem, hrange⟩
    · refine ⟨root, by simp, ?_, ?_⟩
      · rw [hroot.first]
        omega
      · rw [hroot.last]
        omega

/-- **The published roots tile the log.** -/
theorem published_roots_tile_the_log (sha256 : String → String) (start : Rat) (calls : List Call) :
    (∀ before root after, (run (step sha256) (init start) calls).publishedRoots = before ++ root :: after →
        Continues sha256 (added calls) before root) ∧
      (∀ i < (added calls).length,
        (∃ root ∈ (run (step sha256) (init start) calls).publishedRoots,
            root.firstEntryIndex ≤ i ∧ i ≤ root.lastEntryIndex) ∨
          (added calls).length ≤ i + (run (step sha256) (init start) calls).entriesSincePublish) ∧
      (run (step sha256) (init start) calls).entriesSincePublish < publishEntryThreshold := by
  have haligned := aligned_run sha256 start calls
  refine ⟨haligned.roots, fun i hi => ?_, ?_⟩
  · have hcount := haligned.unpublished
    by_cases hcovered : i < covered (run (step sha256) (init start) calls).publishedRoots
    · exact .inl (exists_range haligned.roots hcovered)
    · exact .inr (by omega)
  · have hinit : (init start).entriesSincePublish < publishEntryThreshold := Nat.zero_lt_succ 999
    exact run_invariant (fun s : MerkleAuditStore => s.entriesSincePublish < publishEntryThreshold)
      (fun s call _ => unpublished_step s call) hinit calls

def sampleCalls : List Call :=
  [.addEntry "a" ⟨0, 0, 0⟩, .forcePublish ⟨1, 1, 1⟩, .addEntry "b" ⟨2, 2, 2⟩, .forcePublish ⟨3, 3, 3⟩]

/-- The hash of a root is not that of the entries in its range. -/
theorem root_hash_beyond_its_range :
    ¬ ∀ (sha256 : String → String) (start : Rat) (calls : List Call),
      ∀ root ∈ (run (step sha256) (init start) calls).publishedRoots,
        root.rootHash = (MerkleTree.ofEntries sha256 (((added calls).drop root.firstEntryIndex.toNat).take
          (root.lastEntryIndex - root.firstEntryIndex + 1).toNat)).root sha256 := by
  intro h
  have hall := h sampleDigest 0 sampleCalls
  revert hall
  decide +kernel

end MerkleAuditStore

end Occp.Store
