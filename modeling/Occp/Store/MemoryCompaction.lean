import Mathlib.Algebra.Order.Ring.Rat
import Mathlib.Data.List.Sort
import Occp.Value

/-!
# Compaction of the memory store (`store/memory.py`)

What is read from the clock is a parameter. It may go on while a store is compacted, so that each entry has a
reading of its own.
-/

namespace Occp.Memory

/-! ## The store -/

structure MemoryEntry where
  memoryId : String
  importance : Rat := 1 / 2
  scope : String := "session"
  createdAt : Rat
  tags : List String := []
  deriving DecidableEq

def MemoryEntry.ageSeconds (e : MemoryEntry) (now : Rat) : Rat := now - e.createdAt

/-- Each entry stands under its id, and no id twice. -/
structure MemoryStore where
  entries : Dict MemoryEntry
  nodup : entries.keys.Nodup
  named : ∀ e ∈ entries, e.2.memoryId = e.1

namespace MemoryStore

def empty : MemoryStore := ⟨[], List.nodup_nil, nofun⟩

def add (s : MemoryStore) (entry : MemoryEntry) : MemoryStore where
  entries := s.entries.set entry.memoryId entry
  nodup := Dict.nodup_keys_set _ _ _ s.nodup
  named e he := by
    rcases Dict.mem_set he with rfl | he
    · rfl
    · exact s.named e he

def remove (s : MemoryStore) (memoryId : String) : MemoryStore where
  entries := s.entries.pop memoryId
  nodup := s.nodup.sublist (List.filter_sublist.map _)
  named e he := s.named e (List.mem_filter.mp he).1

def entryCount (s : MemoryStore) : Nat := s.entries.length

/-- `list_entries` without filters. -/
def listEntries (s : MemoryStore) : List MemoryEntry := s.entries.map (·.2)

end MemoryStore

/-! ## Compaction -/

structure CompactionPolicy where
  maxEntries : Int := 10000
  maxAgeSeconds : Rat := 86400 * 30
  minImportance : Rat := 3 / 10
  protectScopes : List String := ["global"]
  protectTags : List String := ["pinned", "critical"]

structure CompactionResult where
  entriesBefore : Nat := 0
  entriesAfter : Nat := 0
  entriesRemoved : Nat := 0
  entriesRetained : Nat := 0
  protectedCount : Nat := 0

namespace CompactionPolicy

variable (p : CompactionPolicy)

def isProtected (e : MemoryEntry) : Bool :=
  e.scope ∈ p.protectScopes || e.tags.any fun t => t ∈ p.protectTags

/-- The first phase removes it. -/
def isUnimportant (e : MemoryEntry) : Bool := e.importance < p.minImportance

variable (now : String → Rat)

/-- The second phase removes it. -/
def isOverAge (e : MemoryEntry) : Bool := p.maxAgeSeconds < e.ageSeconds (now e.memoryId)

variable (s : MemoryStore)

def protectedEntries : List MemoryEntry := s.listEntries.filter p.isProtected

def candidates : List MemoryEntry := s.listEntries.filter (!p.isProtected ·)

def remaining : List MemoryEntry := (p.candidates s).filter (!p.isUnimportant ·)

def stillRemaining : List MemoryEntry := (p.remaining s).filter (!p.isOverAge now ·)

def overshoot : Int := (p.protectedEntries s).length + (p.stillRemaining now s).length - p.maxEntries

/-- What the third phase sorts. -/
def ascending : List MemoryEntry := (p.stillRemaining now s).mergeSort fun a b => a.importance ≤ b.importance

/-- What the third phase removes. -/
def surplus : List MemoryEntry := (p.ascending now s).take (p.overshoot now s).toNat

def toRemove : List MemoryEntry :=
  (p.candidates s).filter p.isUnimportant ++ (p.remaining s).filter (p.isOverAge now) ++ p.surplus now s

def compact : CompactionResult × MemoryStore :=
  let after := ((p.toRemove now s).map (·.memoryId)).foldl MemoryStore.remove s
  ({ entriesBefore := s.entryCount
     entriesAfter := after.entryCount
     entriesRemoved := (p.toRemove now s).length
     entriesRetained := after.entryCount
     protectedCount := (p.protectedEntries s).length }, after)

structure Estimate where
  total : Nat := 0
  protectedCount : Nat := 0
  belowImportance : Nat := 0
  overAge : Nat := 0

/-- `estimatedRemoval`. -/
def Estimate.removal (e : Estimate) : Nat := e.belowImportance + e.overAge

def estimateCompaction : Estimate :=
  s.listEntries.foldl (fun est e =>
    if p.isProtected e then { est with protectedCount := est.protectedCount + 1 }
    else if p.isUnimportant e then { est with belowImportance := est.belowImportance + 1 }
    else if p.isOverAge now e then { est with overAge := est.overAge + 1 }
    else est) { total := s.listEntries.length }

end CompactionPolicy

/-! ## What is removed, and what stays -/

namespace MemoryStore

variable {s : MemoryStore}

theorem entries_foldl_remove (s : MemoryStore) (ids : List String) :
    (ids.foldl remove s).entries = s.entries.filter fun e => e.1 ∉ ids := by
  induction ids generalizing s with
  | nil => simp
  | cons id ids ih =>
    rw [List.foldl_cons, ih]
    unfold remove Dict.pop
    rw [List.filter_filter]
    refine List.filter_congr fun e _ => ?_
    by_cases hid : e.1 = id <;> simp [hid]

theorem listEntries_foldl_remove (s : MemoryStore) (ids : List String) :
    (ids.foldl remove s).listEntries = s.listEntries.filter fun e => e.memoryId ∉ ids := by
  unfold listEntries
  rw [entries_foldl_remove, List.filter_map]
  refine congrArg _ (List.filter_congr fun e he => ?_)
  rw [Function.comp_apply, s.named e he]

theorem entryCount_eq (s : MemoryStore) : s.entryCount = s.listEntries.length := by
  rw [entryCount, listEntries, List.length_map]

theorem nodup_memoryId (s : MemoryStore) : (s.listEntries.map (·.memoryId)).Nodup := by
  have hkeys : s.listEntries.map (·.memoryId) = s.entries.keys := by
    rw [listEntries, List.map_map]
    exact List.map_congr_left s.named
  rw [hkeys]
  exact s.nodup

/-- Entries with the ids of some of them are these. -/
theorem memoryId_mem_map {e : MemoryEntry} (he : e ∈ s.listEntries) {removed : List MemoryEntry}
    (hremoved : removed ⊆ s.listEntries) : e.memoryId ∈ removed.map (·.memoryId) ↔ e ∈ removed := by
  constructor
  · intro h
    obtain ⟨e', he', hsame⟩ := List.mem_map.mp h
    rwa [List.inj_on_of_nodup_map s.nodup_memoryId (hremoved he') he hsame] at he'
  · exact List.mem_map_of_mem

end MemoryStore

namespace CompactionPolicy

variable {p : CompactionPolicy} {now : String → Rat} {s : MemoryStore}

/-- The entries, by what becomes of them. -/
theorem listEntries_perm (p : CompactionPolicy) (now : String → Rat) (s : MemoryStore) :
    s.listEntries.Perm
      (p.protectedEntries s ++ (p.ascending now s).drop (p.overshoot now s).toNat ++ p.toRemove now s) := by
  have hsorted : (p.stillRemaining now s).Perm
      (p.surplus now s ++ (p.ascending now s).drop (p.overshoot now s).toNat) := by
    rw [surplus, List.take_append_drop]
    exact (List.mergeSort_perm _ _).symm
  have hremaining := (List.filter_append_perm (p.isOverAge now) (p.remaining s)).symm
  have hcandidates := (List.filter_append_perm p.isUnimportant (p.candidates s)).symm
  have hentries := (List.filter_append_perm p.isProtected s.listEntries).symm
  refine hentries.trans ?_
  rw [List.append_assoc]
  refine List.Perm.append_left _ (hcandidates.trans ?_)
  refine (List.Perm.append_left _ (hremaining.trans (List.Perm.append_left _ hsorted))).trans ?_
  rw [toRemove, List.append_assoc]
  refine List.Perm.trans ?_ List.perm_append_comm
  rw [List.append_assoc, List.append_assoc]

theorem nodup_split (p : CompactionPolicy) (now : String → Rat) (s : MemoryStore) :
    ((p.protectedEntries s ++ (p.ascending now s).drop (p.overshoot now s).toNat ++ p.toRemove now s).map
      (·.memoryId)).Nodup :=
  ((p.listEntries_perm now s).map _).nodup_iff.mp s.nodup_memoryId

theorem toRemove_subset : p.toRemove now s ⊆ s.listEntries := fun _ he =>
  (p.listEntries_perm now s).mem_iff.mpr (List.mem_append_right _ he)

theorem mem_compact {e : MemoryEntry} :
    e ∈ (p.compact now s).2.listEntries ↔ e ∈ s.listEntries ∧ e ∉ p.toRemove now s := by
  unfold compact
  rw [MemoryStore.listEntries_foldl_remove, List.mem_filter]
  refine and_congr_right fun he => ?_
  rw [decide_eq_true_eq, MemoryStore.memoryId_mem_map he toRemove_subset]

/-- What stays is what is protected, and what is left over. -/
theorem compact_perm (p : CompactionPolicy) (now : String → Rat) (s : MemoryStore) :
    (p.compact now s).2.listEntries.Perm
      (p.protectedEntries s ++ (p.ascending now s).drop (p.overshoot now s).toNat) := by
  have hnodup := List.Nodup.of_map _ (nodup_split p now s)
  have hafter : (p.compact now s).2.listEntries.Nodup := List.Nodup.of_map _ (MemoryStore.nodup_memoryId _)
  rw [List.perm_ext_iff_of_nodup hafter (List.nodup_append.mp hnodup).1]
  intro e
  rw [mem_compact, (p.listEntries_perm now s).mem_iff, List.mem_append]
  constructor
  · rintro ⟨hin | hin, hout⟩
    · exact hin
    · exact absurd hin hout
  · intro hin
    exact ⟨.inl hin, fun hout => (List.nodup_append.mp hnodup).2.2 e hin e hout rfl⟩

/-- The third phase removes it: the others do not. -/
structure RemovedByCount (p : CompactionPolicy) (now : String → Rat) (s after : MemoryStore) (e : MemoryEntry) : Prop where
  mem : e ∈ s.listEntries
  removed : e ∉ after.listEntries
  unprotected : p.isProtected e = false
  important : p.isUnimportant e = false
  recent : p.isOverAge now e = false

/-- The store after a compaction, and its report, are right. -/
structure Compacted (p : CompactionPolicy) (now : String → Rat) (s : MemoryStore) (result : CompactionResult)
    (after : MemoryStore) : Prop where
  old : after.listEntries ⊆ s.listEntries
  protected_kept : ∀ e ∈ s.listEntries, p.isProtected e = true → e ∈ after.listEntries
  count_le : (after.entryCount : Int) ≤ max p.maxEntries (p.protectedEntries s).length
  least_important : ∀ e, RemovedByCount p now s after e → ∀ e' ∈ after.listEntries, p.isProtected e' = false →
    e.importance ≤ e'.importance
  entriesBefore : result.entriesBefore = s.entryCount
  entriesAfter : result.entriesAfter = after.entryCount
  entriesRetained : result.entriesRetained = after.entryCount
  entriesRemoved : result.entriesRemoved = (s.listEntries.filter (· ∉ after.listEntries)).length

theorem mem_surplus_of_removedByCount {e : MemoryEntry} (h : RemovedByCount p now s (p.compact now s).2 e) :
    e ∈ p.surplus now s := by
  have hremoved : e ∈ p.toRemove now s := by
    by_contra hnot
    exact h.removed (mem_compact.mpr ⟨h.mem, hnot⟩)
  rcases List.mem_append.mp hremoved with hearly | hsurplus
  · rcases List.mem_append.mp hearly with hlow | hold
    · exact absurd (List.mem_filter.mp hlow).2 (Bool.eq_false_iff.mp h.important)
    · exact absurd (List.mem_filter.mp hold).2 (Bool.eq_false_iff.mp h.recent)
  · exact hsurplus

/-- The third phase takes from the front of the sorted list. -/
theorem importance_le {e e' : MemoryEntry} (h : e ∈ p.surplus now s)
    (h' : e' ∈ (p.ascending now s).drop (p.overshoot now s).toNat) : e.importance ≤ e'.importance := by
  have hsorted : (p.ascending now s).Pairwise fun a b => decide (a.importance ≤ b.importance) = true :=
    List.pairwise_mergeSort (fun a b c hab hbc => by
      rw [decide_eq_true_eq] at hab hbc ⊢
      exact hab.trans hbc) (fun a b => by
      rw [Bool.or_eq_true, decide_eq_true_eq, decide_eq_true_eq]
      exact le_total _ _) _
  rw [← List.take_append_drop (p.overshoot now s).toNat (p.ascending now s)] at hsorted
  exact of_decide_eq_true ((List.pairwise_append.mp hsorted).2.2 e h e' h')

theorem length_compact (p : CompactionPolicy) (now : String → Rat) (s : MemoryStore) :
    (p.compact now s).2.entryCount =
      (p.protectedEntries s).length + ((p.stillRemaining now s).length - (p.overshoot now s).toNat) := by
  rw [MemoryStore.entryCount_eq, (p.compact_perm now s).length_eq, List.length_append, List.length_drop, ascending,
    List.length_mergeSort]

theorem removed_perm (p : CompactionPolicy) (now : String → Rat) (s : MemoryStore) :
    (s.listEntries.filter (· ∉ (p.compact now s).2.listEntries)).Perm (p.toRemove now s) := by
  have hnodup := List.Nodup.of_map _ (nodup_split p now s)
  have hentries : s.listEntries.Nodup := List.Nodup.of_map _ s.nodup_memoryId
  rw [List.perm_ext_iff_of_nodup (hentries.filter _) (List.nodup_append.mp hnodup).2.1]
  intro e
  rw [List.mem_filter, decide_eq_true_eq, mem_compact]
  constructor
  · rintro ⟨he, hnot⟩
    by_contra hkept
    exact hnot ⟨he, hkept⟩
  · exact fun he => ⟨toRemove_subset he, fun hkept => hkept.2 he⟩

theorem estimateCompaction_removal (p : CompactionPolicy) (now : String → Rat) (s : MemoryStore) :
    (p.estimateCompaction now s).removal =
      ((p.candidates s).filter p.isUnimportant).length + ((p.remaining s).filter (p.isOverAge now)).length := by
  have hfold : ∀ (entries : List MemoryEntry) (est : Estimate),
      (entries.foldl (fun est e =>
        if p.isProtected e then { est with protectedCount := est.protectedCount + 1 }
        else if p.isUnimportant e then { est with belowImportance := est.belowImportance + 1 }
        else if p.isOverAge now e then { est with overAge := est.overAge + 1 }
        else est) est).removal =
      est.removal + ((entries.filter (!p.isProtected ·)).filter p.isUnimportant).length +
        (((entries.filter (!p.isProtected ·)).filter (!p.isUnimportant ·)).filter (p.isOverAge now)).length := by
    intro entries
    induction entries with
    | nil => exact fun est => rfl
    | cons e entries ih =>
      intro est
      rw [List.foldl_cons, ih]
      unfold Estimate.removal
      cases hprotected : p.isProtected e with
      | true => simp [hprotected]
      | false =>
        cases hlow : p.isUnimportant e with
        | true =>
          simp [hprotected, hlow]
          omega
        | false =>
          cases hold : p.isOverAge now e with
          | true =>
            simp [hprotected, hlow, hold]
            omega
          | false => simp [hprotected, hlow, hold]
  unfold estimateCompaction
  rw [hfold, candidates, remaining, candidates]
  simp [Estimate.removal]

/-- The estimate is the number of entries that a compaction at the same time removes. -/
def EstimateAgrees (p : CompactionPolicy) (now : String → Rat) (s : MemoryStore) : Prop :=
  (p.estimateCompaction now s).removal = (s.listEntries.filter (· ∉ (p.compact now s).2.listEntries)).length

theorem length_surplus (p : CompactionPolicy) (now : String → Rat) (s : MemoryStore) :
    (p.surplus now s).length = min (p.overshoot now s).toNat (p.stillRemaining now s).length := by
  rw [surplus, List.length_take, ascending, List.length_mergeSort]

/-- What the estimate misses is what the third phase removes. -/
theorem estimateAgrees_iff_surplus (p : CompactionPolicy) (now : String → Rat) (s : MemoryStore) :
    EstimateAgrees p now s ↔ (p.surplus now s).length = 0 := by
  unfold EstimateAgrees
  rw [estimateCompaction_removal, (removed_perm p now s).length_eq, toRemove, List.length_append, List.length_append]
  omega

/-- **The estimate agrees just when the count limit removes nothing: what is protected and what the other phases
leave is within it, or all of that is protected.** -/
theorem estimateAgrees_iff (p : CompactionPolicy) (now : String → Rat) (s : MemoryStore) : EstimateAgrees p now s ↔
    (p.protectedEntries s).length + (p.stillRemaining now s).length ≤ p.maxEntries ∨ p.stillRemaining now s = [] := by
  rw [estimateAgrees_iff_surplus, length_surplus, ← List.length_eq_zero_iff]
  unfold overshoot
  omega

/-- Two entries where one is allowed. -/
def crowded : MemoryStore :=
  (MemoryStore.empty.add { memoryId := "a", createdAt := 0 }).add { memoryId := "b", createdAt := 0 }

theorem surplus_not_estimated : ¬ ∀ (p : CompactionPolicy) (now : Rat) (s : MemoryStore), EstimateAgrees p (fun _ => now) s := by
  intro h
  have hcrowded := h { maxEntries := 1 } 1 crowded
  rw [estimateAgrees_iff_surplus, length_surplus] at hcrowded
  revert hcrowded
  decide +kernel

end CompactionPolicy

end Occp.Memory
