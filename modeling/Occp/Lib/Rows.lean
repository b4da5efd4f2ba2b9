import Mathlib.Data.List.Basic

/-!
# Rows of a table

Selections by a condition, after the rows of another condition were deleted, replaced or
changed.
-/

namespace Occp.Lib

variable {α : Type} {p q : α → Bool} {rows : List α}

def deleteRows (p : α → Bool) (rows : List α) : List α := rows.filter fun r => !p r

/-- Deletes what the new row takes the place of. -/
def replaceRows (p : α → Bool) (row : α) (rows : List α) : List α := deleteRows p rows ++ [row]

def updateRows (p : α → Bool) (f : α → α) (rows : List α) : List α := rows.map fun r => if p r then f r else r

@[simp] theorem filter_deleteRows_self : (deleteRows p rows).filter p = [] := by
  unfold deleteRows
  rw [List.filter_filter, List.filter_eq_nil_iff]
  intro r _
  simp

theorem filter_deleteRows_of_disjoint (h : ∀ r, q r = true → p r = false) :
    (deleteRows p rows).filter q = rows.filter q := by
  unfold deleteRows
  rw [List.filter_filter]
  refine List.filter_congr fun r _ => ?_
  cases hq : q r with
  | true => rw [h r hq]; rfl
  | false => rfl

theorem filter_replaceRows_self {row : α} (h : p row = true) : (replaceRows p row rows).filter p = [row] := by
  unfold replaceRows
  rw [List.filter_append, filter_deleteRows_self, List.nil_append, List.filter_singleton, h]
  rfl

theorem filter_replaceRows_of_disjoint {row : α} (h : ∀ r, q r = true → p r = false) (hrow : q row = false) :
    (replaceRows p row rows).filter q = rows.filter q := by
  unfold replaceRows
  rw [List.filter_append, filter_deleteRows_of_disjoint h, List.filter_singleton, hrow]
  exact List.append_nil _

theorem filter_map_of_stable {f : α → α} (h : ∀ r, q (f r) = q r) : (rows.map f).filter q = (rows.filter q).map f := by
  rw [List.filter_map]
  exact congrArg _ (List.filter_congr fun r _ => h r)

/-- An update that leaves `q` alone maps what `q` selects. -/
theorem filter_updateRows {f : α → α} (h : ∀ r, q (f r) = q r) :
    (updateRows p f rows).filter q = updateRows p f (rows.filter q) := by
  refine filter_map_of_stable fun r => ?_
  split
  · exact h r
  · rfl

/-- An update that leaves a key alone makes no new one. -/
theorem mem_updateRows {β : Type} {key : α → β} {f : α → α} (h : ∀ r, key (f r) = key r) {r : α}
    (hr : r ∈ updateRows p f rows) : ∃ r' ∈ rows, key r' = key r := by
  obtain ⟨r', hr', rfl⟩ := List.mem_map.mp hr
  refine ⟨r', hr', ?_⟩
  split
  · exact (h r').symm
  · rfl

theorem updateRows_of_forall_not {f : α → α} (h : ∀ r ∈ rows, p r = false) : updateRows p f rows = rows := by
  unfold updateRows
  refine (List.map_congr_left fun r hr => ?_).trans (List.map_id rows)
  rw [h r hr]
  rfl

end Occp.Lib
