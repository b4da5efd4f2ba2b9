import Mathlib.Data.List.Basic

/-!
# Places in a list

What stands where once one element has changed, or one more has come, and what a count makes of
the change.
-/

namespace Occp.Lib

variable {α : Type} {l : List α} {i j : Nat} {x y : α}

theorem getElem?_set_cases (h : (l.set j y)[i]? = some x) : i = j ∧ x = y ∨ i ≠ j ∧ l[i]? = some x := by
  by_cases hne : i = j
  · subst hne
    have hlt := (List.getElem?_eq_some_iff.mp h).1
    rw [List.length_set] at hlt
    rw [List.getElem?_set_self hlt] at h
    exact .inl ⟨rfl, (Option.some.inj h).symm⟩
  · rw [List.getElem?_set_ne (Ne.symm hne)] at h
    exact .inr ⟨hne, h⟩

theorem getElem?_concat_cases (h : (l ++ [y])[i]? = some x) : i = l.length ∧ x = y ∨ l[i]? = some x := by
  rcases Nat.lt_or_ge i l.length with hlt | hge
  · rw [List.getElem?_append_left hlt] at h
    exact .inr h
  · have hlt := (List.getElem?_eq_some_iff.mp h).1
    rw [List.length_append, List.length_singleton] at hlt
    obtain rfl : i = l.length := by omega
    rw [List.getElem?_concat_length] at h
    exact .inl ⟨rfl, (Option.some.inj h).symm⟩

theorem getElem?_concat_of_some (h : l[i]? = some x) : (l ++ [y])[i]? = some x := by
  rw [List.getElem?_append_left (List.getElem?_eq_some_iff.mp h).1, h]

theorem countP_set_add (p : α → Bool) (h : l[j]? = some x) :
    (l.set j y).countP p + (if p x then 1 else 0) = l.countP p + (if p y then 1 else 0) := by
  induction l generalizing j with
  | nil => cases h
  | cons z l ih =>
    cases j with
    | zero =>
      obtain rfl : z = x := Option.some.inj h
      rw [List.set_cons_zero, List.countP_cons, List.countP_cons]
      omega
    | succ j =>
      rw [List.set_cons_succ, List.countP_cons, List.countP_cons]
      have hrest := ih (j := j) h
      omega

end Occp.Lib
