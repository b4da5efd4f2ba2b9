import Mathlib.Algebra.Order.Group.Nat

/-!
# Edit distance

The least number of insertions, deletions and substitutions of one item that turn a list into another.
-/

namespace Occp.Lib

variable {α : Type}

/-- One item is inserted, deleted or replaced. -/
inductive Edit : List α → List α → Prop
  | insert (before after : List α) (x : α) : Edit (before ++ after) (before ++ x :: after)
  | delete (before after : List α) (x : α) : Edit (before ++ x :: after) (before ++ after)
  | substitute (before after : List α) (x y : α) : Edit (before ++ x :: after) (before ++ y :: after)

inductive Edits : Nat → List α → List α → Prop
  | refl (xs : List α) : Edits 0 xs xs
  | step {n : Nat} {xs ys zs : List α} (h : Edit xs ys) (rest : Edits n ys zs) : Edits (n + 1) xs zs

structure IsEditDistance (xs ys : List α) (n : Nat) : Prop where
  edits : Edits n xs ys
  least : ∀ m, Edits m xs ys → n ≤ m

/-! ## Edits -/

variable {xs ys zs : List α} {n m : Nat}

theorem Edit.symm (h : Edit xs ys) : Edit ys xs := by
  cases h with
  | insert before after x => exact .delete before after x
  | delete before after x => exact .insert before after x
  | substitute before after x y => exact .substitute before after y x

theorem Edit.cons (z : α) (h : Edit xs ys) : Edit (z :: xs) (z :: ys) := by
  cases h with
  | insert before after x => exact .insert (z :: before) after x
  | delete before after x => exact .delete (z :: before) after x
  | substitute before after x y => exact .substitute (z :: before) after x y

theorem Edit.reverse (h : Edit xs ys) : Edit xs.reverse ys.reverse := by
  cases h with
  | insert before after x =>
    simp only [List.reverse_append, List.reverse_cons, List.append_assoc, List.singleton_append]
    exact .insert after.reverse before.reverse x
  | delete before after x =>
    simp only [List.reverse_append, List.reverse_cons, List.append_assoc, List.singleton_append]
    exact .delete after.reverse before.reverse x
  | substitute before after x y =>
    simp only [List.reverse_append, List.reverse_cons, List.append_assoc, List.singleton_append]
    exact .substitute after.reverse before.reverse x y

theorem Edits.trans (h : Edits n xs ys) (h' : Edits m ys zs) : Edits (n + m) xs zs := by
  induction h with
  | refl ys =>
    rw [Nat.zero_add]
    exact h'
  | step hedit _ ih =>
    rw [Nat.add_right_comm]
    exact .step hedit (ih h')

theorem Edits.symm (h : Edits n xs ys) : Edits n ys xs := by
  induction h with
  | refl xs => exact .refl xs
  | step hedit _ ih => exact ih.trans (.step hedit.symm (.refl _))

theorem Edits.cons (z : α) (h : Edits n xs ys) : Edits n (z :: xs) (z :: ys) := by
  induction h with
  | refl xs => exact .refl (z :: xs)
  | step hedit _ ih => exact .step (hedit.cons z) ih

theorem Edits.reverse (h : Edits n xs ys) : Edits n xs.reverse ys.reverse := by
  induction h with
  | refl xs => exact .refl xs.reverse
  | step hedit _ ih => exact .step hedit.reverse ih

theorem IsEditDistance.symm (h : IsEditDistance xs ys n) : IsEditDistance ys xs n :=
  ⟨h.edits.symm, fun m hm => h.least m hm.symm⟩

theorem IsEditDistance.of_reverse (h : IsEditDistance xs.reverse ys.reverse n) : IsEditDistance xs ys n := by
  refine ⟨?_, fun m hm => h.least m hm.reverse⟩
  have hedits := h.edits.reverse
  rwa [List.reverse_reverse, List.reverse_reverse] at hedits

theorem IsEditDistance.unique (h : IsEditDistance xs ys n) (h' : IsEditDistance xs ys m) : n = m :=
  le_antisymm (h.least m h'.edits) (h'.least n h.edits)

/-! ## The recursion -/

variable [DecidableEq α]

def distance : List α → List α → Nat
  | [], ys => ys.length
  | xs, [] => xs.length
  | x :: xs, y :: ys =>
    min (distance xs (y :: ys) + 1) (min (distance (x :: xs) ys + 1) (distance xs ys + if x = y then 0 else 1))
termination_by xs ys => xs.length + ys.length

@[simp] theorem distance_nil (ys : List α) : distance [] ys = ys.length := by
  rw [distance]

@[simp] theorem distance_nil_right (xs : List α) : distance xs [] = xs.length := by
  cases xs <;> simp [distance]

theorem distance_cons_cons (x y : α) (xs ys : List α) : distance (x :: xs) (y :: ys) =
    min (distance xs (y :: ys) + 1)
      (min (distance (x :: xs) ys + 1) (distance xs ys + if x = y then 0 else 1)) := by
  rw [distance]

/-- So many edits are enough. -/
theorem edits_distance (xs ys : List α) : Edits (distance xs ys) xs ys := by
  induction xs, ys using distance.induct with
  | case1 ys =>
    rw [distance_nil]
    induction ys with
    | nil => exact .refl []
    | cons y ys ih => exact .step (.insert [] [] y) (ih.cons y)
  | case2 xs hne =>
    rw [distance_nil_right]
    clear hne
    induction xs with
    | nil => exact .refl []
    | cons x xs ih => exact .step (.delete [] xs x) ih
  | case3 x xs y ys ihdelete ihinsert ihboth =>
    rw [distance_cons_cons]
    rcases min_choice (distance xs (y :: ys) + 1)
      (min (distance (x :: xs) ys + 1) (distance xs ys + if x = y then 0 else 1)) with h | h
    · rw [h]
      exact .step (.delete [] xs x) ihdelete
    · rw [h]
      rcases min_choice (distance (x :: xs) ys + 1) (distance xs ys + if x = y then 0 else 1) with h | h
      · rw [h]
        exact ihinsert.trans (.step (.insert [] ys y) (.refl _))
      · rw [h]
        split
        · next hsame =>
          rw [hsame]
          exact ihboth.cons y
        · exact (ihboth.cons x).trans (.step (.substitute [] ys x y) (.refl _))

/-! ## One edit changes the distance by one at most -/

theorem distance_cons_le (x : α) (xs zs : List α) : distance (x :: xs) zs ≤ distance xs zs + 1 := by
  cases zs with
  | nil => simp
  | cons z zs =>
    rw [distance_cons_cons]
    exact min_le_left _ _

theorem distance_cons_right_le (xs : List α) (z : α) (zs : List α) : distance xs (z :: zs) ≤ distance xs zs + 1 := by
  cases xs with
  | nil => simp
  | cons x xs =>
    rw [distance_cons_cons]
    exact (min_le_right _ _).trans (min_le_left _ _)

theorem distance_le_cons (x : α) (xs zs : List α) : distance xs zs ≤ distance (x :: xs) zs + 1 := by
  induction zs with
  | nil =>
    simp
    omega
  | cons z zs ih =>
    have hinsert := distance_cons_right_le xs z zs
    rw [distance_cons_cons]
    omega

theorem distance_replace_le (x y : α) (xs zs : List α) : distance (x :: xs) zs ≤ distance (y :: xs) zs + 1 := by
  induction zs with
  | nil => simp
  | cons z zs ih =>
    rw [distance_cons_cons, distance_cons_cons]
    have hcost : (if x = z then 0 else 1) ≤ (if y = z then 0 else 1) + 1 := by
      split <;> omega
    omega

theorem distance_append_le (before : List α) {xs ys : List α} (h : ∀ zs, distance xs zs ≤ distance ys zs + 1) (zs : List α) :
    distance (before ++ xs) zs ≤ distance (before ++ ys) zs + 1 := by
  induction before generalizing zs with
  | nil => exact h zs
  | cons x before ih =>
    rw [List.cons_append, List.cons_append]
    induction zs with
    | nil =>
      have hnil := ih []
      simp only [distance_nil_right, List.length_cons] at hnil ⊢
      omega
    | cons z zs ihzs =>
      have hdelete := ih (z :: zs)
      have hboth := ih zs
      rw [distance_cons_cons, distance_cons_cons]
      omega

theorem distance_le_of_edit (h : Edit xs ys) (zs : List α) : distance xs zs ≤ distance ys zs + 1 := by
  cases h with
  | insert before after x => exact distance_append_le before (distance_le_cons x after) zs
  | delete before after x => exact distance_append_le before (distance_cons_le x after) zs
  | substitute before after x y => exact distance_append_le before (distance_replace_le x y after) zs

theorem distance_self (xs : List α) : distance xs xs = 0 := by
  induction xs with
  | nil => rw [distance_nil, List.length_nil]
  | cons x xs ih =>
    rw [distance_cons_cons, if_pos rfl, ih]
    omega

/-- Fewer edits are not. -/
theorem distance_le_of_edits (h : Edits n xs ys) : distance xs ys ≤ n := by
  induction h with
  | refl xs => exact (distance_self xs).le
  | step hedit _ ih => exact (distance_le_of_edit hedit _).trans (Nat.add_le_add_right ih 1)

theorem isEditDistance_distance (xs ys : List α) : IsEditDistance xs ys (distance xs ys) :=
  ⟨edits_distance xs ys, fun _ => distance_le_of_edits⟩

end Occp.Lib
