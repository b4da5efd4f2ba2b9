import Mathlib.Algebra.Order.Group.Defs
import Mathlib.Algebra.Order.Sub.Basic
import Mathlib.Tactic.Abel

/-!
# Sliding windows

Some times are kept of those at which something was let through, and a full window lets nothing more
through. Whoever keeps the times of the last window only counts as well as one who keeps them all.
-/

namespace Occp.Lib

variable {α : Type} [AddCommGroup α] [LinearOrder α]

/-- How many of the times are in the window of width `w` that ends with `t`. -/
def within (w t : α) (times : List α) : Nat := times.countP fun u => t - w < u && u ≤ t

variable {w t now last x : α} {kept times : List α} {n : Nat}

theorem within_eq_length (h : ∀ u ∈ times, u ≤ t) : within w t times = (times.filter (t - w < ·)).length := by
  unfold within
  rw [List.countP_eq_length_filter, List.filter_congr]
  intro u hu
  simp [h u hu]

theorem within_concat (w t u : α) (times : List α) :
    within w t (times ++ [u]) = within w t times + if t - w < u ∧ u ≤ t then 1 else 0 := by
  unfold within
  rw [List.countP_append, List.countP_singleton]
  simp

/-- Every window holds at most `n` of the times. -/
def Limited (w : α) (n : Nat) (times : List α) : Prop := ∀ t, within w t times ≤ n

theorem limited_nil (w : α) (n : Nat) : Limited w n [] := fun _ => Nat.zero_le n

/-- The times that are kept count, from `last` on, as all times do. -/
structure Keeps (w last : α) (kept times : List α) : Prop where
  recent : ∀ x, last - w ≤ x → kept.filter (x < ·) = times.filter (x < ·)
  past : ∀ u ∈ times, u ≤ last
  ordered : times.Pairwise (· ≤ ·)

theorem keeps_nil (w last : α) : Keeps w last [] [] := ⟨fun _ _ => rfl, List.forall_mem_nil _, .nil⟩

theorem Keeps.concat (h : Keeps w now kept times) : Keeps w now (kept ++ [now]) (times ++ [now]) where
  recent x hx := by rw [List.filter_append, List.filter_append, h.recent x hx]
  past u hu := by
    rcases List.mem_append.mp hu with hu | hu
    · exact h.past u hu
    · exact (List.mem_singleton.mp hu).le
  ordered := by
    rw [List.pairwise_append]
    refine ⟨h.ordered, List.pairwise_singleton _ _, fun u hu v hv => ?_⟩
    rw [List.mem_singleton.mp hv]
    exact h.past u hu

/-- While the oldest time of a window is in it, it holds them all. -/
theorem le_within_of_first {first : α} {rest : List α} (hwindow : times.filter (now - w < ·) = first :: rest)
    (hpast : ∀ u ∈ times, u ≤ now) (hordered : times.Pairwise (· ≤ ·)) (hnow : now ≤ t) (hstays : t - w < first) :
    (first :: rest).length ≤ within w t times := by
  have hsorted : (first :: rest).Pairwise (· ≤ ·) := hwindow ▸ hordered.filter _
  have hall : ∀ u ∈ first :: rest, t - w < u := by
    intro u hu
    rcases List.mem_cons.mp hu with rfl | hrest
    · exact hstays
    · exact lt_of_lt_of_le hstays (List.rel_of_pairwise_cons hsorted hrest)
  rw [within_eq_length fun u hu => (hpast u hu).trans hnow, ← List.filter_eq_self.mpr fun u hu => decide_eq_true (hall u hu),
    ← hwindow]
  exact (List.filter_sublist.filter _).length_le

variable [IsOrderedAddMonoid α]

/-- A later window that reaches back to before `now` holds no more of the past. -/
theorem within_le_of_later (h : now ≤ t) : within w t times ≤ (times.filter (now - w < ·)).length := by
  unfold within
  rw [← List.countP_eq_length_filter]
  refine List.countP_mono_left fun u _ hu => ?_
  rw [Bool.and_eq_true, decide_eq_true_eq] at hu
  exact decide_eq_true (lt_of_le_of_lt (sub_le_sub_right h w) hu.1)

/-- What is let through while the window is not full leaves all windows limited. -/
theorem Limited.concat (h : Limited w n times) (hroom : (times.filter (now - w < ·)).length < n) :
    Limited w n (times ++ [now]) := by
  intro t
  rw [within_concat]
  split
  · next hin =>
    have hpast : within w t times ≤ (times.filter (now - w < ·)).length := within_le_of_later hin.2
    omega
  · exact h t

theorem Keeps.later (h : Keeps w last kept times) (hnow : last ≤ now) : Keeps w now kept times where
  recent x hx := h.recent x ((sub_le_sub_right hnow w).trans hx)
  past u hu := (h.past u hu).trans hnow
  ordered := h.ordered

/-- To drop what the window has passed loses nothing. -/
theorem Keeps.prune (h : Keeps w last kept times) (hnow : last ≤ now) : Keeps w now (kept.filter (now - w < ·)) times where
  recent x hx := by
    rw [List.filter_filter, ← h.recent x ((sub_le_sub_right hnow w).trans hx)]
    refine List.filter_congr fun u _ => ?_
    have himp : x < u → now - w < u := lt_of_le_of_lt hx
    simpa using himp
  past := (h.later hnow).past
  ordered := h.ordered

/-- The count of the pruned times is that of the window. -/
theorem Keeps.length_pruned (h : Keeps w last kept times) (hnow : last ≤ now) :
    (kept.filter (now - w < ·)).length = within w now times := by
  rw [h.recent _ (sub_le_sub_right hnow w), within_eq_length (h.later hnow).past]

/-- Once the oldest time of a window has left it, the window holds one time less. -/
theorem within_lt_of_first {first : α} {rest : List α} (hwindow : times.filter (now - w < ·) = first :: rest)
    (hnow : now ≤ t) (hleft : first ≤ t - w) : within w t times < (first :: rest).length := by
  have hlater : within w t times = within w t (first :: rest) := by
    unfold within
    rw [← hwindow, List.countP_filter]
    refine List.countP_congr fun u hu => ?_
    have himp : t - w < u → now - w < u := lt_of_le_of_lt (sub_le_sub_right hnow w)
    simp only [Bool.and_eq_true, decide_eq_true_eq]
    tauto
  rw [hlater]
  unfold within
  rw [List.countP_cons_of_neg (by simp [hleft.not_gt]), List.length_cons]
  exact Nat.lt_succ_of_le List.countP_le_length

end Occp.Lib
