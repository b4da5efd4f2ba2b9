import Mathlib.Data.List.Basic
import Mathlib.Tactic.Common

/-!
# Patterns with a group

A pattern is a list of steps: one of some texts, or a run of a class of characters, as long or as short as it can be. A
matcher tries what a step may take in order, and goes on behind each match that it finds.
-/

namespace Occp.Lib.Capture

variable {α : Type}

inductive Step (α : Type) where
  /-- One of the texts; an earlier one is tried first. -/
  | oneOf (texts : List (List α))
  | greedy (p : α → Bool)
  | lazily (p : α → Bool)

/-- What may be left behind a run, the longest run first. -/
def runEnds (p : α → Bool) : List α → List (List α)
  | [] => [[]]
  | c :: cs => (if p c then runEnds p cs else []) ++ [c :: cs]

theorem mem_runEnds {p : α → Bool} {cs rest : List α} : rest ∈ runEnds p cs ↔ ∃ w, (∀ c ∈ w, p c = true) ∧ cs = w ++ rest := by
  induction cs with
  | nil =>
    constructor
    · intro h
      rw [List.mem_singleton.mp h]
      exact ⟨[], nofun, rfl⟩
    · rintro ⟨w, -, heq⟩
      rw [(List.append_eq_nil_iff.mp heq.symm).2]
      exact List.mem_singleton_self []
  | cons c cs ih =>
    rw [runEnds, List.mem_append, List.mem_singleton]
    constructor
    · rintro (h | rfl)
      · split at h
        · next hc =>
          obtain ⟨w, hw, rfl⟩ := ih.mp h
          exact ⟨c :: w, List.forall_mem_cons.mpr ⟨hc, hw⟩, rfl⟩
        · cases h
      · exact ⟨[], nofun, rfl⟩
    · rintro ⟨w, hw, heq⟩
      cases w with
      | nil => exact .inr heq.symm
      | cons d w =>
        obtain ⟨rfl, rfl⟩ := List.cons.inj heq
        obtain ⟨hc, hw⟩ := List.forall_mem_cons.mp hw
        rw [if_pos hc]
        exact .inl (ih.mpr ⟨w, hw, rfl⟩)

/-- The longer the run, the less is left. -/
theorem pairwise_runEnds (p : α → Bool) (cs : List α) :
    (runEnds p cs).Pairwise fun rest rest' => rest.length < rest'.length := by
  induction cs with
  | nil => exact List.pairwise_singleton _ _
  | cons c cs ih =>
    rw [runEnds]
    split
    · refine List.pairwise_append.mpr ⟨ih, List.pairwise_singleton _ _, fun rest hrest rest' hrest' => ?_⟩
      obtain ⟨w, -, hw⟩ := mem_runEnds.mp hrest
      rw [List.mem_singleton.mp hrest', hw, List.length_cons, List.length_append]
      omega
    · exact List.pairwise_singleton _ _

/-- Of texts that get shorter, the first that gives anything is the longest one that does. -/
theorem head_flatMap {β : Type} {f : List α → List β} {xs : List (List α)} {b : β} {more : List β}
    (hpairwise : xs.Pairwise fun x y => y.length < x.length) (h : xs.flatMap f = b :: more) :
    ∃ x ∈ xs, b ∈ f x ∧ ∀ y ∈ xs, f y ≠ [] → y.length ≤ x.length := by
  induction xs with
  | nil => cases h
  | cons x xs ih =>
    rw [List.flatMap_cons] at h
    obtain ⟨hx, hxs⟩ := List.pairwise_cons.mp hpairwise
    cases hf : f x with
    | nil =>
      rw [hf, List.nil_append] at h
      obtain ⟨y, hy, hb, hlongest⟩ := ih hxs h
      refine ⟨y, List.mem_cons_of_mem x hy, hb, fun z hz hne => ?_⟩
      rcases List.mem_cons.mp hz with rfl | hz
      · exact absurd hf hne
      · exact hlongest z hz hne
    | cons c cs =>
      rw [hf] at h
      obtain ⟨rfl, -⟩ := List.cons.inj h
      refine ⟨x, List.mem_cons_self, by rw [hf]; exact List.mem_cons_self, fun z hz _ => ?_⟩
      rcases List.mem_cons.mp hz with rfl | hz
      · exact Nat.le_refl _
      · exact Nat.le_of_lt (hx z hz)

variable [DecidableEq α]

namespace Step

/-- What may be left behind the step, in the order in which the matcher tries it. -/
def ends : Step α → List α → List (List α)
  | oneOf texts, cs => texts.filterMap fun text => if text.isPrefixOf cs then some (cs.drop text.length) else none
  | greedy p, cs => runEnds p cs
  | lazily p, cs => (runEnds p cs).reverse

def Matches : Step α → List α → Prop
  | oneOf texts, w => w ∈ texts
  | greedy p, w => ∀ c ∈ w, p c = true
  | lazily p, w => ∀ c ∈ w, p c = true

end Step

def ends : List (Step α) → List α → List (List α)
  | [], cs => [cs]
  | s :: steps, cs => (s.ends cs).flatMap (ends steps)

def Matches : List (Step α) → List α → Prop
  | [], w => w = []
  | s :: steps, w => ∃ u v, w = u ++ v ∧ s.Matches u ∧ Matches steps v

variable {steps : List (Step α)} {cs rest : List α}

theorem Step.mem_ends {s : Step α} : rest ∈ s.ends cs ↔ ∃ w, s.Matches w ∧ cs = w ++ rest := by
  cases s with
  | oneOf texts =>
    simp only [Step.ends, Step.Matches, List.mem_filterMap, Option.ite_none_right_eq_some, Option.some.injEq]
    refine exists_congr fun w => and_congr_right fun _ => ?_
    constructor
    · rintro ⟨hstart, rfl⟩
      obtain ⟨tail, rfl⟩ := List.isPrefixOf_iff_prefix.mp hstart
      rw [List.drop_left]
    · rintro rfl
      exact ⟨List.isPrefixOf_iff_prefix.mpr (List.prefix_append w rest), List.drop_left⟩
  | greedy p => exact mem_runEnds
  | lazily p => exact List.mem_reverse.trans mem_runEnds

theorem mem_ends : rest ∈ ends steps cs ↔ ∃ w, Matches steps w ∧ cs = w ++ rest := by
  induction steps generalizing cs with
  | nil => simp [ends, Matches, eq_comm]
  | cons s steps ih =>
    simp only [ends, Matches, List.mem_flatMap, Step.mem_ends, ih]
    constructor
    · rintro ⟨mid, ⟨u, hu, rfl⟩, v, hv, rfl⟩
      exact ⟨u ++ v, ⟨u, v, rfl, hu, hv⟩, by rw [List.append_assoc]⟩
    · rintro ⟨w, ⟨u, v, rfl, hu, hv⟩, rfl⟩
      exact ⟨v ++ rest, ⟨u, hu, by rw [List.append_assoc]⟩, v, hv, rfl⟩

/-! ## Groups -/

structure Pattern (α : Type) where
  before : List (Step α)
  group : List (Step α)
  after : List (Step α)

namespace Pattern

variable (P : Pattern α)

/-- The groups of the matches from a place, each with the text behind its match, in the order in which they are tried. -/
def solutions (cs : List α) : List (List α × List α) :=
  (Capture.ends P.before cs).flatMap fun start => (Capture.ends P.group start).flatMap fun stop =>
    (Capture.ends P.after stop).map fun rest => (start.take (start.length - stop.length), rest)

/-- The groups of all matches; so many characters still belong to the last one. -/
def findFrom : (skip : Nat) → List α → List (List α)
  | _ + 1, [] => []
  | skip + 1, _ :: cs => findFrom skip cs
  | 0, [] => ((P.solutions []).head?.map Prod.fst).toList
  | 0, c :: cs =>
    match P.solutions (c :: cs) with
    | [] => findFrom 0 cs
    | (g, rest) :: _ => g :: findFrom (cs.length - rest.length) cs

/-- `findall`. -/
def findAll (text : List α) : List (List α) := P.findFrom 0 text

variable {P} {g : List α}

theorem mem_solutions :
    (g, rest) ∈ P.solutions cs ↔
      ∃ u v, cs = u ++ (g ++ (v ++ rest)) ∧ Matches P.before u ∧ Matches P.group g ∧ Matches P.after v := by
  simp only [solutions, List.mem_flatMap, List.mem_map, mem_ends, Prod.mk.injEq]
  constructor
  · rintro ⟨start, ⟨u, hu, rfl⟩, stop, ⟨g', hg, rfl⟩, rest', ⟨v, hv, rfl⟩, htake, rfl⟩
    rw [List.length_append, Nat.add_sub_cancel, List.take_left] at htake
    rw [← htake]
    exact ⟨u, v, rfl, hu, hg, hv⟩
  · rintro ⟨u, v, rfl, hu, hg, hv⟩
    refine ⟨_, ⟨u, hu, rfl⟩, _, ⟨g, hg, rfl⟩, rest, ⟨v, hv, rfl⟩, ?_, rfl⟩
    rw [List.length_append, Nat.add_sub_cancel, List.take_left]

variable (P) in
/-- No match is empty. -/
def Consumes : Prop := ∀ u g v, Matches P.before u → Matches P.group g → Matches P.after v → u ++ (g ++ v) ≠ []

theorem Consumes.length_lt (hP : P.Consumes) (h : (g, rest) ∈ P.solutions cs) : rest.length < cs.length := by
  obtain ⟨u, v, rfl, hu, hg, hv⟩ := mem_solutions.mp h
  have hlength := List.length_pos_iff.mpr (hP u g v hu hg hv)
  simp only [List.length_append] at hlength ⊢
  omega

theorem Consumes.solutions_nil (hP : P.Consumes) : P.solutions [] = [] := by
  rw [List.eq_nil_iff_forall_not_mem]
  rintro ⟨g, rest⟩ h
  exact absurd (hP.length_lt h) (Nat.not_lt_zero _)

theorem findFrom_skip (hP : P.Consumes) (skip : Nat) (cs : List α) : P.findFrom skip cs = P.findFrom 0 (cs.drop skip) := by
  induction skip generalizing cs with
  | zero => rfl
  | succ skip ih =>
    cases cs with
    | nil => simp [findFrom, hP.solutions_nil]
    | cons c cs => rw [findFrom, ih, List.drop_succ_cons]

variable (P) in
/-- The groups of a text: each is the first that is tried at the first place, behind the last match, where there is one. -/
inductive Found : List α → List (List α) → Prop
  | nil : Found [] []
  | skip {c : α} {cs : List α} {gs : List (List α)} (hnone : P.solutions (c :: cs) = []) (h : Found cs gs) :
      Found (c :: cs) gs
  | hit {cs g rest : List α} {more : List (List α × List α)} {gs : List (List α)}
      (hfirst : P.solutions cs = (g, rest) :: more) (h : Found rest gs) : Found cs (g :: gs)

theorem found_findAll (hP : P.Consumes) (text : List α) : P.Found text (P.findAll text) := by
  unfold findAll
  obtain ⟨n, hn⟩ : ∃ n, text.length ≤ n := ⟨_, Nat.le_refl _⟩
  induction n generalizing text with
  | zero =>
    rw [List.length_eq_zero_iff.mp (Nat.le_zero.mp hn)]
    simpa [findFrom, hP.solutions_nil] using Found.nil
  | succ n ih =>
    cases text with
    | nil => simpa [findFrom, hP.solutions_nil] using Found.nil
    | cons c cs =>
      rw [List.length_cons] at hn
      rw [findFrom]
      split
      · next hnone => exact .skip hnone (ih cs (by omega))
      · next g rest more hfirst =>
        have hmem : (g, rest) ∈ P.solutions (c :: cs) := by
          rw [hfirst]
          exact List.mem_cons_self
        have hlength := hP.length_lt hmem
        obtain ⟨u, v, hsplit, -⟩ := mem_solutions.mp hmem
        rw [List.length_cons] at hlength
        -- What is skipped is the rest of the match.
        have hdrop : cs.drop (cs.length - rest.length) = rest := by
          have hsuffix : rest <:+ c :: cs := ⟨u ++ (g ++ v), by rw [hsplit]; simp⟩
          rcases List.suffix_cons_iff.mp hsuffix with heq | htail
          · rw [heq, List.length_cons] at hlength
            omega
          · exact (List.suffix_iff_eq_drop.mp htail).symm
        rw [findFrom_skip hP, hdrop]
        exact .hit hfirst (ih rest (by omega))

theorem Found.unique {gs gs' : List (List α)} (h : P.Found cs gs) (h' : P.Found cs gs') (hP : P.Consumes) : gs = gs' := by
  induction h generalizing gs' with
  | nil =>
    cases h' with
    | nil => rfl
    | hit hfirst h =>
      rw [hP.solutions_nil] at hfirst
      cases hfirst
  | skip hnone h ih =>
    cases h' with
    | skip hnone' h' => exact ih h'
    | hit hfirst h' =>
      rw [hnone] at hfirst
      cases hfirst
  | hit hfirst h ih =>
    cases h' with
    | nil =>
      rw [hP.solutions_nil] at hfirst
      cases hfirst
    | skip hnone' h' =>
      rw [hnone'] at hfirst
      cases hfirst
    | hit hfirst' h' =>
      rw [hfirst] at hfirst'
      cases hfirst'
      rw [ih h']

theorem findAll_eq (hP : P.Consumes) {gs : List (List α)} (h : P.Found cs gs) : P.findAll cs = gs :=
  (found_findAll hP cs).unique h hP

/-- Each group is one of a match somewhere in the text. -/
theorem Found.exists_match {gs : List (List α)} (h : P.Found cs gs) (hg : g ∈ gs) :
    ∃ x u v z, cs = x ++ (u ++ (g ++ (v ++ z))) ∧ Matches P.before u ∧ Matches P.group g ∧ Matches P.after v := by
  induction h with
  | nil => cases hg
  | @skip c cs gs hnone h ih =>
    obtain ⟨x, u, v, z, rfl, hmatches⟩ := ih hg
    exact ⟨c :: x, u, v, z, rfl, hmatches⟩
  | @hit cs g' rest more gs hfirst h ih =>
    have hmem : (g', rest) ∈ P.solutions cs := by
      rw [hfirst]
      exact List.mem_cons_self
    obtain ⟨u', v', rfl, hu', hg', hv'⟩ := mem_solutions.mp hmem
    rcases List.mem_cons.mp hg with rfl | hg
    · exact ⟨[], u', v', rest, rfl, hu', hg', hv'⟩
    · obtain ⟨x, u, v, z, rfl, hmatches⟩ := ih hg
      exact ⟨u' ++ (g' ++ (v' ++ x)), u, v, z, by simp only [List.append_assoc], hmatches⟩

/-- Where nothing is found, there is no match. -/
theorem Found.no_match (h : P.Found cs []) (hP : P.Consumes) {x y : List α} (hsplit : cs = x ++ y) : P.solutions y = [] := by
  obtain ⟨gs, hgs⟩ : ∃ gs, gs = ([] : List (List α)) := ⟨_, rfl⟩
  rw [← hgs] at h
  induction h generalizing x with
  | nil =>
    rw [(List.append_eq_nil_iff.mp hsplit.symm).2]
    exact hP.solutions_nil
  | @skip c cs gs hnone h ih =>
    cases x with
    | nil =>
      rw [List.nil_append] at hsplit
      rw [← hsplit]
      exact hnone
    | cons d x => exact ih (List.cons.inj hsplit).2 hgs
  | hit hfirst h ih => cases hgs

theorem found_nil (h : ∀ x y, cs = x ++ y → P.solutions y = []) : P.Found cs [] := by
  induction cs with
  | nil => exact .nil
  | cons c cs ih => exact .skip (h [] (c :: cs) rfl) (ih fun x y hsplit => h (c :: x) y (by rw [hsplit]; rfl))

/-- Nothing is found in front of the text. -/
theorem Found.skip_append {gs : List (List α)} (h : P.Found cs gs) {front : List α}
    (hnone : ∀ x y, front = x ++ y → y ≠ [] → P.solutions (y ++ cs) = []) : P.Found (front ++ cs) gs := by
  induction front with
  | nil => exact h
  | cons c front ih =>
    refine .skip (hnone [] (c :: front) rfl (List.cons_ne_nil c front)) (ih fun x y hsplit hne => ?_)
    exact hnone (c :: x) y (by rw [hsplit]; rfl) hne

/-- All matches from the place have one group and end alike. -/
theorem found_only {gs : List (List α)} (hsome : (g, rest) ∈ P.solutions cs) (honly : ∀ s ∈ P.solutions cs, s = (g, rest))
    (h : P.Found rest gs) : P.Found cs (g :: gs) := by
  obtain ⟨s, more, hs⟩ := List.exists_cons_of_ne_nil (List.ne_nil_of_mem hsome)
  have hfirst := honly s (by rw [hs]; exact List.mem_cons_self)
  rw [hfirst] at hs
  exact .hit hs h

end Pattern

end Occp.Lib.Capture
