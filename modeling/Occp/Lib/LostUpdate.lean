import Mathlib.Data.List.Nodup
import Occp.Lib.Runs

/-!
# Updates that get lost

Writers read a shared value and later write what they make of it. An update is lost when
another writer reads in between, and in no other case.
-/

namespace Occp.Lib

variable {κ ι α : Type}

/-- A writer between its read and its write. -/
structure Pending (κ ι α : Type) where
  who : κ
  call : ι
  seen : α
  /-- How many calls were over when it read. -/
  since : Nat

structure Shared (κ ι α : Type) where
  stored : α
  pending : List (Pending κ ι α) := []
  /-- The calls that are over, in the order of their writes. -/
  done : List ι := []

inductive Access (κ ι : Type) where
  | read (who : κ) (call : ι)
  | write (who : κ)

namespace Shared

variable [DecidableEq κ] (update : ι → α → α)

def pendingOf (s : Shared κ ι α) (who : κ) : Option (Pending κ ι α) := s.pending.find? fun p => p.who = who

/-- A writer does one call after the other. -/
def step (s : Shared κ ι α) : Access κ ι → Shared κ ι α
  | .read who call =>
    match s.pendingOf who with
    | some _ => s
    | none => { s with pending := ⟨who, call, s.stored, s.done.length⟩ :: s.pending }
  | .write who =>
    match s.pendingOf who with
    | none => s
    | some p =>
      { stored := update p.call p.seen, pending := s.pending.filter fun q => q.who ≠ who, done := s.done ++ [p.call] }

/-- Nobody reads while another writer is between its read and its write. -/
def Alone (s : Shared κ ι α) : Access κ ι → Prop
  | .read who _ => ∀ p ∈ s.pending, p.who = who
  | .write _ => True

variable {update} {s : Shared κ ι α} {who : κ} {call : ι} {p : Pending κ ι α}

theorem mem_of_pendingOf (h : s.pendingOf who = some p) : p ∈ s.pending ∧ p.who = who := by
  refine ⟨List.mem_of_find?_eq_some h, ?_⟩
  simpa using List.find?_some h

theorem not_mem_of_pendingOf (h : s.pendingOf who = none) : ∀ q ∈ s.pending, q.who ≠ who := by
  intro q hq
  simpa using List.find?_eq_none.mp h q hq

/-! ## In turn -/

/-- The value is what the calls made of it one after the other, and a pending writer has seen it. -/
structure InTurn (update : ι → α → α) (start : α) (s : Shared κ ι α) : Prop where
  stored : s.stored = s.done.foldl (fun a i => update i a) start
  seen : ∀ p ∈ s.pending, p.seen = s.stored
  one : ∀ p ∈ s.pending, ∀ q ∈ s.pending, p.who = q.who

theorem inTurn_step {start : α} (h : InTurn update start s) (e : Access κ ι) (he : s.Alone e) :
    InTurn update start (s.step update e) := by
  cases e with
  | read who call =>
    unfold step
    dsimp only
    split
    · exact h
    · next hidle =>
      have hempty : s.pending = [] := by
        refine List.eq_nil_iff_forall_not_mem.mpr fun q hq => ?_
        exact not_mem_of_pendingOf hidle q hq (he q hq)
      refine ⟨h.stored, ?_, ?_⟩
      · intro q hq
        rw [hempty, List.mem_singleton] at hq
        rw [hq]
      · intro q hq q' hq'
        rw [hempty, List.mem_singleton] at hq hq'
        rw [hq, hq']
  | write who =>
    unfold step
    dsimp only
    split
    · exact h
    · next p hp =>
      obtain ⟨hmem, hwho⟩ := mem_of_pendingOf hp
      have hempty : s.pending.filter (fun q => q.who ≠ who) = [] := by
        refine List.filter_eq_nil_iff.mpr fun q hq => ?_
        rw [decide_eq_true_eq, not_not, ← hwho]
        exact h.one q hq p hmem
      refine ⟨?_, ?_, ?_⟩
      · rw [List.foldl_append, ← h.stored, ← h.seen p hmem]
        rfl
      · rw [hempty]
        exact nofun
      · rw [hempty]
        exact nofun

theorem stored_of_alone (start : α) (events : List (Access κ ι))
    (h : Admitted (step update) Alone { stored := start } events) :
    let after := run (step update) { stored := start } events
    after.stored = after.done.foldl (fun a i => update i a) start := by
  intro after
  have hstart : InTurn update start (⟨start, [], []⟩ : Shared κ ι α) := ⟨rfl, nofun, nofun⟩
  exact (h.invariant (InTurn update start) hstart fun s e hs he => inTurn_step hs e he).stored

/-! ## Overlapping -/

variable {size : α → Int} {base : Int}

/-- No value is larger than the calls before it made it. -/
structure Sized (size : α → Int) (base : Int) (s : Shared κ ι α) : Prop where
  stored : size s.stored ≤ base + s.done.length
  seen : ∀ p ∈ s.pending, size p.seen ≤ base + p.since
  since : ∀ p ∈ s.pending, p.since ≤ s.done.length
  fresh : ∀ p ∈ s.pending, p.since = s.done.length → p.seen = s.stored
  nodup : (s.pending.map (·.who)).Nodup

/-- An update is lost, or one is going to be: someone has seen an old value, or two have seen the same. -/
def Lost (size : α → Int) (base : Int) (s : Shared κ ι α) : Prop :=
  size s.stored < base + s.done.length ∨ (∃ p ∈ s.pending, p.since < s.done.length) ∨
    ∃ p ∈ s.pending, ∃ q ∈ s.pending, p.who ≠ q.who

/-- Someone who reads while another writer is pending brings it about. -/
theorem lost_of_not_alone (e : Access κ ι) (he : ¬ s.Alone e) :
    Lost size base (s.step update e) := by
  cases e with
  | read who call =>
    simp only [Alone, not_forall] at he
    obtain ⟨p, hp, hne⟩ := he
    unfold step
    dsimp only
    split
    · next q hq =>
      obtain ⟨hmem, hwho⟩ := mem_of_pendingOf hq
      exact .inr (.inr ⟨p, hp, q, hmem, fun heq => hne (heq.trans hwho)⟩)
    · exact .inr (.inr ⟨p, List.mem_cons_of_mem _ hp, _, List.mem_cons_self, hne⟩)
  | write who => exact absurd trivial he

variable (hsize : ∀ i a, size (update i a) = size a + 1)
include hsize

theorem sized_step (h : Sized size base s) (e : Access κ ι) : Sized size base (s.step update e) := by
  cases e with
  | read who call =>
    unfold step
    dsimp only
    split
    · exact h
    · next hidle =>
      refine ⟨h.stored, ?_, ?_, ?_, ?_⟩
      · rintro p (_ | ⟨_, hp⟩)
        · exact h.stored
        · exact h.seen p hp
      · rintro p (_ | ⟨_, hp⟩)
        · exact Nat.le_refl _
        · exact h.since p hp
      · rintro p (_ | ⟨_, hp⟩) hlen
        · rfl
        · exact h.fresh p hp hlen
      · rw [List.map_cons, List.nodup_cons]
        refine ⟨fun hmem => ?_, h.nodup⟩
        obtain ⟨q, hq, hwho⟩ := List.mem_map.mp hmem
        exact not_mem_of_pendingOf hidle q hq hwho
  | write who =>
    unfold step
    dsimp only
    split
    · exact h
    · next p hp =>
      obtain ⟨hmem, hwho⟩ := mem_of_pendingOf hp
      have hseen := h.seen p hmem
      have hsince := h.since p hmem
      have hlen : (s.done ++ [p.call]).length = s.done.length + 1 := List.length_append
      have hrest (q : Pending κ ι α) (hq : q ∈ s.pending.filter fun q => q.who ≠ who) : q ∈ s.pending :=
        (List.mem_filter.mp hq).1
      refine ⟨?_, fun q hq => h.seen q (hrest q hq), fun q hq => ?_, fun q hq heq => ?_, ?_⟩
      · dsimp only
        rw [hlen, hsize]
        push_cast
        omega
      · have := h.since q (hrest q hq)
        dsimp only
        omega
      · have := h.since q (hrest q hq)
        dsimp only at heq
        omega
      · exact h.nodup.sublist (List.filter_sublist.map _)

theorem lost_step (h : Sized size base s) (hlost : Lost size base s) (e : Access κ ι) :
    Lost size base (s.step update e) := by
  cases e with
  | read who call =>
    unfold step
    dsimp only
    split
    · exact hlost
    · rcases hlost with hless | ⟨p, hp, hold⟩ | ⟨p, hp, q, hq, hne⟩
      · exact .inl hless
      · exact .inr (.inl ⟨p, List.mem_cons_of_mem _ hp, hold⟩)
      · exact .inr (.inr ⟨p, List.mem_cons_of_mem _ hp, q, List.mem_cons_of_mem _ hq, hne⟩)
  | write who =>
    unfold step
    dsimp only
    split
    · exact hlost
    · next p hp =>
      obtain ⟨hmem, hwho⟩ := mem_of_pendingOf hp
      have hlen : (s.done ++ [p.call]).length = s.done.length + 1 := List.length_append
      have hseen := h.seen p hmem
      have hsince := h.since p hmem
      -- Another writer that is still pending has now seen an old value.
      have hother (q : Pending κ ι α) (hq : q ∈ s.pending) (hne : q.who ≠ who) :
          Lost size base ⟨update p.call p.seen, s.pending.filter fun q => q.who ≠ who, s.done ++ [p.call]⟩ := by
        have hq' : q ∈ s.pending.filter fun q => q.who ≠ who := List.mem_filter.mpr ⟨hq, by simpa using hne⟩
        have hsince' := h.since q hq
        exact .inr (.inl ⟨q, hq', by dsimp only; omega⟩)
      -- The writer itself has seen an old value, so what it writes is too small.
      have hself (hold : p.since < s.done.length) :
          Lost size base ⟨update p.call p.seen, s.pending.filter fun q => q.who ≠ who, s.done ++ [p.call]⟩ := by
        refine .inl ?_
        dsimp only
        rw [hlen, hsize]
        push_cast
        omega
      rcases hlost with hless | ⟨q, hq, hold⟩ | ⟨q, hq, q', hq', hne⟩
      · by_cases hold : p.since < s.done.length
        · exact hself hold
        · refine .inl ?_
          dsimp only
          rw [hlen, hsize, h.fresh p hmem (by omega)]
          push_cast
          omega
      · by_cases hqw : q.who = who
        · have hqp : q = p := List.inj_on_of_nodup_map h.nodup hq hmem (hqw.trans hwho.symm)
          exact hself (hqp ▸ hold)
        · exact hother q hq hqw
      · by_cases hqw : q.who = who
        · exact hother q' hq' fun hqw' => hne (hqw.trans hqw'.symm)
        · exact hother q hq hqw

theorem lost_of_not_admitted (h : Sized size base s) (events : List (Access κ ι))
    (hover : Lost size base s ∨ ¬ Admitted (step update) Alone s events) :
    Lost size base (run (step update) s events) := by
  induction events generalizing s with
  | nil => exact hover.resolve_right fun hnot => hnot trivial
  | cons e events ih =>
    refine ih (sized_step hsize h e) ?_
    rcases hover with hlost | hnot
    · exact .inl (lost_step hsize h hlost e)
    · by_cases he : s.Alone e
      · exact .inr fun hrest => hnot ⟨he, hrest⟩
      · exact .inl (lost_of_not_alone e he)

/-- **When every call is over, none was lost exactly when nobody read between another's read and write.** -/
theorem size_eq_iff_alone (start : α) (events : List (Access κ ι))
    (hover : (run (step update) { stored := start } events).pending = []) :
    size (run (step update) { stored := start } events).stored =
        size start + (run (step update) { stored := start } events).done.length ↔
      Admitted (step update) Alone { stored := start } events := by
  constructor
  · intro heq
    by_contra hnot
    have hsized : Sized size (size start) (⟨start, [], []⟩ : Shared κ ι α) :=
      ⟨by simp, nofun, nofun, nofun, List.nodup_nil⟩
    rcases lost_of_not_admitted hsize hsized events (.inr hnot) with hless | ⟨p, hp, -⟩ | ⟨p, hp, -⟩
    · omega
    · rw [hover] at hp
      cases hp
    · rw [hover] at hp
      cases hp
  · intro h
    have hfold (l : List ι) (a : α) : size (l.foldl (fun a i => update i a) a) = size a + l.length := by
      induction l generalizing a with
      | nil => simp
      | cons i l ih =>
        rw [List.foldl_cons, ih, hsize, List.length_cons]
        push_cast
        omega
    rw [stored_of_alone start events h, hfold]

end Shared

end Occp.Lib
