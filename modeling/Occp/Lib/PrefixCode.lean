import Mathlib.Data.List.Basic

/-!
# Prefix codes

Words of which none begins another are found again in the text that they make up.
-/

namespace Occp.Lib

variable {α : Type}

theorem flatten_inj_of_prefix_free {words words' : List (List α)} (hne : ∀ w ∈ words ++ words', w ≠ [])
    (hfree : ∀ w ∈ words, ∀ w' ∈ words', w <+: w' ∨ w' <+: w → w = w') (h : words.flatten = words'.flatten) :
    words = words' := by
  induction words generalizing words' with
  | nil =>
    cases words' with
    | nil => rfl
    | cons w' rest' =>
      rw [List.flatten_nil, List.flatten_cons] at h
      exact absurd (List.append_eq_nil_iff.mp h.symm).1 (hne w' (by simp))
  | cons w rest ih =>
    cases words' with
    | nil =>
      rw [List.flatten_nil, List.flatten_cons] at h
      exact absurd (List.append_eq_nil_iff.mp h).1 (hne w (by simp))
    | cons w' rest' =>
      rw [List.flatten_cons, List.flatten_cons] at h
      have hfirst : w <+: w' ∨ w' <+: w :=
        List.prefix_or_prefix_of_prefix (List.prefix_append w rest.flatten) (h ▸ List.prefix_append w' rest'.flatten)
      obtain rfl := hfree w (by simp) w' (by simp) hfirst
      rw [ih (fun v hv => hne v ?_) (fun v hv v' hv' => hfree v (by simp [hv]) v' (by simp [hv']))
        (List.append_cancel_left h)]
      rcases List.mem_append.mp hv with hv | hv <;> simp [hv]

/-- With a separator after every word, the text is the one with separators in between, and one more. -/
theorem flatten_map_concat (sep : α) {words : List (List α)} (h : words ≠ []) :
    (words.map (· ++ [sep])).flatten = [sep].intercalate words ++ [sep] := by
  induction words with
  | nil => exact absurd rfl h
  | cons w rest ih =>
    cases rest with
    | nil => simp
    | cons w' rest =>
      rw [List.map_cons, List.flatten_cons, ih (by simp), List.intercalate_cons_cons]
      simp

end Occp.Lib
