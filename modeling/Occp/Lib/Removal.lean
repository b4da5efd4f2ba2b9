import Mathlib.Data.List.TakeWhile
import Mathlib.Tactic.Common
import Occp.Lib.Regex

/-!
# Removing matches

A matcher goes on behind each match that it takes out. Long runs of a class of characters can come up again when
characters between them are removed later.
-/

namespace Occp.Lib

variable {α : Type}

namespace Regex

/-- All matches are taken out, from the left; so many characters still belong to the last one. -/
def removeFrom (word : α → Bool) (r : Regex α) : (skip : Nat) → (prev : Option α) → List α → List α
  | _, _, [] => []
  | skip + 1, _, c :: cs => removeFrom word r skip (some c) cs
  | 0, prev, c :: cs =>
    match r.ends word ⟨prev, c :: cs⟩ with
    | [] => c :: removeFrom word r 0 (some c) cs
    | e :: _ =>
      match (c :: cs).length - e.rest.length with
      | 0 => c :: removeFrom word r 0 (some c) cs
      | skip + 1 => removeFrom word r skip (some c) cs

def remove (word : α → Bool) (r : Regex α) (text : List α) : List α := removeFrom word r 0 none text

variable {word : α → Bool} {p : α → Bool}

theorem removeFrom_of_searchFrom {r : Regex α} {prev : Option α} {text : List α} (h : searchFrom word r prev text = none) :
    removeFrom word r 0 prev text = text := by
  induction text generalizing prev with
  | nil => rfl
  | cons c cs ih =>
    rw [searchFrom] at h
    rw [removeFrom]
    split at h
    · cases h
    · next hends =>
      rw [hends]
      exact congrArg (c :: ·) (ih h)

theorem remove_of_search {r : Regex α} {text : List α} (h : search word r text = none) : remove word r text = text :=
  removeFrom_of_searchFrom h

theorem removeFrom_chars (prev : Option α) (text : List α) :
    removeFrom word (.chars p) 0 prev text = text.filter (!p ·) := by
  induction text generalizing prev with
  | nil => rfl
  | cons c cs ih =>
    rw [removeFrom]
    cases hc : p c with
    | true =>
      have hends : (chars p).ends word ⟨prev, c :: cs⟩ = [⟨some c, cs⟩] := by simp [ends, hc]
      have hone : (c :: cs).length - cs.length = 0 + 1 := by simp
      rw [hends]
      dsimp only
      rw [hone]
      simp [hc, ih]
    | false =>
      have hends : (chars p).ends word ⟨prev, c :: cs⟩ = [] := by simp [ends, hc]
      rw [hends]
      simp [hc, ih]

theorem remove_chars (text : List α) : remove word (.chars p) text = text.filter (!p ·) := removeFrom_chars none text

/-! ## Runs -/

/-- What is left of a run when long ones are taken out. -/
def shortRun (n : Nat) (run : List α) : List α := if n ≤ run.length then [] else run

/-- The text without its long runs, after a run that it goes on with. -/
def dropRuns (p : α → Bool) (n : Nat) : (run : List α) → List α → List α
  | run, [] => shortRun n run
  | run, c :: cs => if p c then dropRuns p n (run ++ [c]) cs else shortRun n run ++ c :: dropRuns p n [] cs

theorem head?_repEnds {run rest : List α} (hrun : ∀ c ∈ run, p c = true) (hrest : rest.head?.any p = false) (min : Nat)
    (prev : Option α) :
    ((repEnds p min none prev (run ++ rest)).head?.map (·.rest)) = if min ≤ run.length then some rest else none := by
  induction run generalizing min prev with
  | nil =>
    cases rest with
    | nil => cases min <;> simp [repEnds]
    | cons c rest =>
      have hc : p c = false := by simpa using hrest
      cases min <;> simp [repEnds, hc]
  | cons c run ih =>
    have hc := hrun c List.mem_cons_self
    have hmore := ih (fun d hd => hrun d (List.mem_cons_of_mem c hd)) (min - 1) (some c)
    rw [List.cons_append, repEnds, if_pos ⟨hc, by simp⟩, Option.map_none, List.head?_append, List.length_cons]
    by_cases hmin : min ≤ run.length + 1
    · rw [if_pos (show min - 1 ≤ run.length by omega)] at hmore
      rw [if_pos hmin]
      obtain ⟨e, he, hrest⟩ := Option.map_eq_some_iff.mp hmore
      rw [he, Option.some_or, Option.map_some, hrest]
    · rw [if_neg (show ¬ min - 1 ≤ run.length by omega)] at hmore
      rw [if_neg hmin, Option.map_eq_none_iff.mp hmore, if_neg (show ¬ min = 0 by omega)]
      rfl

theorem removeFrom_skip (word : α → Bool) (r : Regex α) (skipped rest : List α) (prev : Option α) :
    ∃ prev', removeFrom word r skipped.length prev (skipped ++ rest) = removeFrom word r 0 prev' rest := by
  induction skipped generalizing prev with
  | nil => exact ⟨prev, rfl⟩
  | cons c skipped ih =>
    rw [List.cons_append, List.length_cons, removeFrom]
    exact ih (some c)

variable {n : Nat}

theorem not_le_length_nil (hn : 0 < n) : ¬ n ≤ ([] : List α).length := Nat.not_le.mpr hn

/-- A run that ends here is taken out, or stays. -/
theorem removeFrom_run (word : α → Bool) (hn : 0 < n) {run rest : List α} (hrun : ∀ c ∈ run, p c = true)
    (hrest : rest.head?.any p = false) (prev : Option α) :
    ∃ prev', removeFrom word (.rep p n none) 0 prev (run ++ rest) =
      shortRun n run ++ removeFrom word (.rep p n none) 0 prev' rest := by
  induction run generalizing prev with
  | nil =>
    rw [shortRun, if_neg (not_le_length_nil hn)]
    exact ⟨prev, rfl⟩
  | cons c run ih =>
    have hends := head?_repEnds hrun hrest n prev
    have hrun' : ∀ d ∈ run, p d = true := fun d hd => hrun d (List.mem_cons_of_mem c hd)
    rw [List.cons_append] at hends ⊢
    have hrep : (rep p n none).ends word ⟨prev, c :: (run ++ rest)⟩ = repEnds p n none prev (c :: (run ++ rest)) := rfl
    rw [removeFrom, hrep]
    cases hlist : repEnds p n none prev (c :: (run ++ rest)) with
    | nil =>
      rw [hlist] at hends
      split at hends
      · cases hends
      · next hshort =>
        have hshort' : ¬ n ≤ run.length := by
          rw [List.length_cons] at hshort
          omega
        obtain ⟨prev', hprev⟩ := ih hrun' (some c)
        refine ⟨prev', ?_⟩
        dsimp only
        rw [hprev, shortRun, shortRun, if_neg hshort, if_neg hshort']
        rfl
    | cons e more =>
      rw [hlist] at hends
      split at hends
      · next hlong =>
        have hafter : e.rest = rest := Option.some.inj hends
        have hskip : (c :: (run ++ rest)).length - e.rest.length = run.length + 1 := by
          rw [hafter, List.length_cons, List.length_append]
          omega
        obtain ⟨prev', hprev⟩ := removeFrom_skip word (.rep p n none) run rest (some c)
        refine ⟨prev', ?_⟩
        dsimp only
        rw [hskip, shortRun, if_pos hlong]
        exact hprev
      · cases hends

theorem removeFrom_rep (hn : 0 < n) {run : List α} (hrun : ∀ c ∈ run, p c = true) (prev : Option α) (text : List α) :
    removeFrom word (.rep p n none) 0 prev (run ++ text) = dropRuns p n run text := by
  induction text generalizing run prev with
  | nil =>
    have hend : ([] : List α).head?.any p = false := rfl
    obtain ⟨prev', hprev⟩ := removeFrom_run word hn hrun hend prev
    rw [hprev, removeFrom, List.append_nil, dropRuns]
  | cons c text ih =>
    rw [dropRuns]
    split
    · next hc =>
      have hlonger : ∀ d ∈ run ++ [c], p d = true := by
        intro d hd
        rcases List.mem_append.mp hd with hd | hd
        · exact hrun d hd
        · rwa [List.mem_singleton.mp hd]
      rw [← ih hlonger prev, List.append_assoc]
      rfl
    · next hc =>
      have hhead : (c :: text).head?.any p = false := by simpa using hc
      obtain ⟨prev', hprev⟩ := removeFrom_run word hn hrun hhead prev
      have hempty : ∀ d ∈ ([] : List α), p d = true := nofun
      have hnone := head?_repEnds hempty hhead n prev'
      rw [if_neg (not_le_length_nil hn), List.nil_append, Option.map_eq_none_iff, List.head?_eq_none_iff] at hnone
      have hstep : removeFrom word (.rep p n none) 0 prev' (c :: text) =
          c :: removeFrom word (.rep p n none) 0 (some c) text := by
        have hrep : (rep p n none).ends word ⟨prev', c :: text⟩ = repEnds p n none prev' (c :: text) := rfl
        rw [removeFrom, hrep, hnone]
      have hrest := ih hempty (some c)
      rw [List.nil_append] at hrest
      rw [hprev, hstep, hrest]

theorem remove_rep (hn : 0 < n) (text : List α) : remove word (.rep p n none) text = dropRuns p n [] text :=
  have hempty : ∀ c ∈ ([] : List α), p c = true := nofun
  removeFrom_rep hn hempty none text

/-! ## Long runs -/

/-- So many characters of the class stand next to each other. -/
def LongRun (p : α → Bool) (n : Nat) (text : List α) : Prop :=
  ∃ before run after, text = before ++ run ++ after ∧ n ≤ run.length ∧ ∀ c ∈ run, p c = true

theorem repEnds_ne_nil_iff (prev : Option α) (rest : List α) :
    repEnds p n none prev rest ≠ [] ↔ ∃ run after, rest = run ++ after ∧ n ≤ run.length ∧ ∀ c ∈ run, p c = true := by
  have hrun : ∀ c ∈ rest.takeWhile p, p c = true := fun c hc => List.mem_takeWhile_imp hc
  have hhead := head?_repEnds hrun (List.head?_dropWhile_not p rest |> fun h => by
    cases hd : (rest.dropWhile p).head? with
    | none => rfl
    | some c => simpa [hd] using h) n prev
  rw [List.takeWhile_append_dropWhile] at hhead
  constructor
  · intro hne
    obtain ⟨e, more, hlist⟩ := List.exists_cons_of_ne_nil hne
    rw [hlist] at hhead
    split at hhead
    · next hlong => exact ⟨rest.takeWhile p, rest.dropWhile p, List.takeWhile_append_dropWhile.symm, hlong, hrun⟩
    · cases hhead
  · rintro ⟨run, after, rfl, hlong, hall⟩ hnil
    rw [List.takeWhile_append_of_pos hall, List.length_append, if_pos (by omega), hnil] at hhead
    cases hhead

theorem search_rep_isSome_iff (word : α → Bool) (text : List α) :
    (search word (.rep p n none) text).isSome ↔ LongRun p n text := by
  refine (searchFrom_isSome_iff [] text).trans ?_
  constructor
  · rintro ⟨before, rest, rfl, hends⟩
    obtain ⟨run, after, rfl, hlong, hall⟩ := (repEnds_ne_nil_iff _ _).mp hends
    exact ⟨before, run, after, (List.append_assoc _ _ _).symm, hlong, hall⟩
  · rintro ⟨before, run, after, rfl, hlong, hall⟩
    exact ⟨before, run ++ after, List.append_assoc _ _ _, (repEnds_ne_nil_iff _ _).mpr ⟨run, after, rfl, hlong, hall⟩⟩

theorem search_chars_isSome_iff (word : α → Bool) (text : List α) :
    (search word (.chars p) text).isSome ↔ ∃ c ∈ text, p c = true := by
  refine (searchFrom_isSome_iff [] text).trans ?_
  constructor
  · rintro ⟨before, rest, rfl, hends⟩
    obtain ⟨e, he⟩ := List.exists_mem_of_ne_nil _ hends
    obtain ⟨c, cs, rfl, hc, -⟩ := mem_ends_chars.mp he
    exact ⟨c, List.mem_append_right _ List.mem_cons_self, hc⟩
  · rintro ⟨c, hmem, hc⟩
    obtain ⟨before, after, rfl⟩ := List.append_of_mem hmem
    exact ⟨before, c :: after, rfl, List.ne_nil_of_mem (mem_ends_chars.mpr ⟨c, after, rfl, hc, rfl⟩)⟩

/-- A run stays on one side of a character that is not of the class. -/
theorem longRun_append_cons {c : α} (hc : p c = false) (hn : 0 < n) (xs ys : List α) :
    LongRun p n (xs ++ c :: ys) ↔ LongRun p n xs ∨ LongRun p n ys := by
  constructor
  · rintro ⟨before, run, after, hsplit, hlong, hall⟩
    have hnot : c ∉ run := fun hmem => Bool.false_ne_true (hc.symm.trans (hall c hmem))
    rw [List.append_assoc] at hsplit
    rcases List.append_eq_append_iff.mp hsplit with ⟨gap, rfl, hrest⟩ | ⟨gap, rfl, hrest⟩
    · cases gap with
      | nil =>
        cases run with
        | nil => exact absurd hlong (not_le_length_nil hn)
        | cons d run =>
          obtain ⟨rfl, -⟩ := List.cons.inj hrest
          exact absurd List.mem_cons_self hnot
      | cons d gap =>
        obtain ⟨-, rfl⟩ := List.cons.inj hrest
        exact .inr ⟨gap, run, after, (List.append_assoc _ _ _).symm, hlong, hall⟩
    · rcases List.append_eq_append_iff.mp hrest.symm with ⟨gap', rfl, hgap⟩ | ⟨gap', rfl, -⟩
      · cases gap' with
        | nil => exact .inl ⟨before, gap, [], by simp, by simpa using hlong, by simpa using hall⟩
        | cons d gap' =>
          obtain ⟨rfl, -⟩ := List.cons.inj hgap
          exact absurd (List.mem_append_right gap List.mem_cons_self) hnot
      · exact .inl ⟨before, run, gap', (List.append_assoc _ _ _).symm, hlong, hall⟩
  · rintro (⟨before, run, after, rfl, hlong, hall⟩ | ⟨before, run, after, rfl, hlong, hall⟩)
    · exact ⟨before, run, after ++ c :: ys, by simp, hlong, hall⟩
    · exact ⟨xs ++ c :: before, run, after, by simp, hlong, hall⟩

theorem longRun_of_all {text : List α} (hall : ∀ c ∈ text, p c = true) : LongRun p n text ↔ n ≤ text.length := by
  constructor
  · rintro ⟨before, run, after, rfl, hlong, -⟩
    simp only [List.length_append]
    omega
  · intro hlong
    exact ⟨[], text, [], by simp, hlong, hall⟩

/-! ## Removing other characters afterwards -/

theorem dropRuns_append_cons {c : α} (hc : p c = false) (run xs ys : List α) :
    dropRuns p n run (xs ++ c :: ys) = dropRuns p n run xs ++ c :: dropRuns p n [] ys := by
  induction xs generalizing run with
  | nil => simp [dropRuns, hc]
  | cons d xs ih =>
    rw [List.cons_append, dropRuns, dropRuns, ih, ih]
    split
    · rfl
    · rw [List.append_assoc, List.cons_append]

theorem dropRuns_of_all {text : List α} (hall : ∀ c ∈ text, p c = true) (run : List α) :
    dropRuns p n run text = shortRun n (run ++ text) := by
  induction text generalizing run with
  | nil => rw [dropRuns, List.append_nil]
  | cons c text ih =>
    rw [dropRuns, if_pos (hall c List.mem_cons_self), ih (fun d hd => hall d (List.mem_cons_of_mem c hd)),
      List.append_assoc]
    rfl

theorem mem_of_mem_shortRun {run : List α} {c : α} (h : c ∈ shortRun n run) : c ∈ run := by
  unfold shortRun at h
  split at h
  · cases h
  · exact h

theorem mem_of_mem_dropRuns {run text : List α} {c : α} (h : c ∈ dropRuns p n run text) : c ∈ run ∨ c ∈ text := by
  induction text generalizing run with
  | nil => exact .inl (mem_of_mem_shortRun h)
  | cons d text ih =>
    rw [dropRuns] at h
    split at h
    · rcases ih h with h | h
      · rcases List.mem_append.mp h with h | h
        · exact .inl h
        · exact .inr (List.mem_singleton.mp h ▸ List.mem_cons_self)
      · exact .inr (List.mem_cons_of_mem d h)
    · rcases List.mem_append.mp h with h | h
      · exact .inl (mem_of_mem_shortRun h)
      · rcases List.mem_cons.mp h with rfl | h
        · exact .inr List.mem_cons_self
        · exact .inr (List.mem_cons_of_mem d ((ih h).resolve_left List.not_mem_nil))

theorem length_dropRuns_le (run text : List α) : (dropRuns p n run text).length ≤ run.length + text.length := by
  have hshort (run : List α) : (shortRun n run).length ≤ run.length := by
    unfold shortRun
    split <;> simp
  induction text generalizing run with
  | nil => exact hshort run
  | cons c text ih =>
    rw [dropRuns, List.length_cons]
    split
    · have hmore := ih (run ++ [c])
      rw [List.length_append, List.length_singleton] at hmore
      omega
    · have hmore := ih []
      have hrun := hshort run
      rw [List.length_append, List.length_cons]
      rw [List.length_nil] at hmore
      omega

/-- Text is either free of a class, or has a first character of it. -/
theorem eq_free_or_split (q : α → Bool) (text : List α) :
    (∀ c ∈ text, q c = false) ∨ ∃ xs c ys, text = xs ++ c :: ys ∧ (∀ d ∈ xs, q d = false) ∧ q c = true := by
  induction text with
  | nil => exact .inl nofun
  | cons c text ih =>
    cases hc : q c with
    | true => exact .inr ⟨[], c, text, rfl, nofun, hc⟩
    | false =>
      rcases ih with hfree | ⟨xs, d, ys, rfl, hxs, hd⟩
      · refine .inl fun d hd => ?_
        rcases List.mem_cons.mp hd with rfl | hd
        · exact hc
        · exact hfree d hd
      · refine .inr ⟨c :: xs, d, ys, rfl, fun e he => ?_, hd⟩
        rcases List.mem_cons.mp he with rfl | he
        · exact hc
        · exact hxs e he

variable {z : α → Bool}

/-- In a stretch of the class and of characters that are removed later, the short runs come together. -/
theorem filter_dropRuns (hz : ∀ c, z c = true → p c = false) {s : List α} (hs : ∀ c ∈ s, p c = true ∨ z c = true) :
    (dropRuns p n [] s).filter (!z ·) = ((s.splitOnP z).map (shortRun n)).flatten := by
  have hclass (xs : List α) (hxs : ∀ c ∈ xs, p c = true ∨ z c = true) (hfree : ∀ c ∈ xs, z c = false) :
      (∀ c ∈ xs, p c = true) ∧ (shortRun n xs).filter (!z ·) = shortRun n xs := by
    refine ⟨fun c hc => (hxs c hc).resolve_right (by simp [hfree c hc]), List.filter_eq_self.mpr fun c hc => ?_⟩
    simp [hfree c (mem_of_mem_shortRun hc)]
  induction hlen : s.length using Nat.strong_induction_on generalizing s with
  | _ m ih =>
    rcases eq_free_or_split z s with hfree | ⟨xs, c, ys, rfl, hfree, hc⟩
    · obtain ⟨hall, hkeep⟩ := hclass s hs hfree
      rw [dropRuns_of_all hall, List.nil_append, hkeep, List.splitOnP_eq_singleton hfree]
      simp
    · obtain ⟨hall, hkeep⟩ := hclass xs (fun d hd => hs d (List.mem_append_left _ hd)) hfree
      have hys : ∀ d ∈ ys, p d = true ∨ z d = true := fun d hd =>
        hs d (List.mem_append_right _ (List.mem_cons_of_mem c hd))
      have hshorter : ys.length < m := by
        rw [← hlen, List.length_append, List.length_cons]
        omega
      rw [dropRuns_append_cons (hz c hc), dropRuns_of_all hall, List.nil_append, List.filter_append, hkeep,
        List.filter_cons_of_neg (by simp [hc]), ih ys.length hshorter hys rfl,
        List.splitOnP_append_cons_of_forall_mem hfree c hc]
      rfl

/-- Removal leaves a long run just where the short runs of one stretch are long together. -/
theorem longRun_filter_dropRuns_iff (hn : 0 < n) (hz : ∀ c, z c = true → p c = false) (text : List α) :
    LongRun p n ((dropRuns p n [] text).filter (!z ·)) ↔
      ∃ s ∈ text.splitOnP fun c => !p c && !z c, n ≤ ((s.splitOnP z).map (shortRun n)).flatten.length := by
  have hstretch (s : List α) (hs : ∀ c ∈ s, (!p c && !z c) = false) :
      LongRun p n ((dropRuns p n [] s).filter (!z ·)) ↔ n ≤ ((s.splitOnP z).map (shortRun n)).flatten.length := by
    have hs' : ∀ c ∈ s, p c = true ∨ z c = true := fun c hc => by
      have hc := hs c hc
      revert hc
      cases p c <;> cases z c <;> simp
    rw [longRun_of_all, filter_dropRuns hz hs']
    intro c hc
    obtain ⟨hmem, hnot⟩ := List.mem_filter.mp hc
    have hstay : c ∈ s := (mem_of_mem_dropRuns hmem).resolve_left List.not_mem_nil
    exact (hs' c hstay).resolve_right (by simpa using hnot)
  induction hlen : text.length using Nat.strong_induction_on generalizing text with
  | _ m ih =>
    rcases eq_free_or_split (fun c => !p c && !z c) text with hfree | ⟨xs, c, ys, rfl, hfree, hc⟩
    · rw [hstretch text hfree, List.splitOnP_eq_singleton hfree]
      simp
    · have hshorter : ys.length < m := by
        rw [← hlen, List.length_append, List.length_cons]
        omega
      obtain ⟨hpc, hzc⟩ : p c = false ∧ z c = false := by simpa using hc
      have hrest := ih ys.length hshorter ys rfl
      rw [dropRuns_append_cons hpc, List.filter_append, List.filter_cons_of_pos (by simp [hzc]),
        longRun_append_cons hpc hn, hstretch xs hfree, propext hrest,
        List.splitOnP_append_cons_of_forall_mem hfree c hc]
      simp

end Regex

end Occp.Lib
