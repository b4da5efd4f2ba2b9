import Mathlib.Data.List.TakeWhile

/-!
# Fields between delimiters

Cutting a text at the first or the last delimiter, into all of its pieces, or into so many fields.
-/

namespace Occp.Lib

variable {α : Type} [DecidableEq α] {sep : α} {text field rest : List α}

/-- The text before the first delimiter and the text after it. -/
def splitFirst (sep : α) (text : List α) : Option (List α × List α) :=
  match text.dropWhile (· ≠ sep) with
  | [] => none
  | _ :: rest => some (text.takeWhile (· ≠ sep), rest)

/-- The text before the last delimiter and the text after it. -/
def splitLast (sep : α) (text : List α) : Option (List α × List α) :=
  (splitFirst sep text.reverse).map fun p => (p.2.reverse, p.1.reverse)

theorem splitFirst_append (h : sep ∉ field) (rest : List α) : splitFirst sep (field ++ sep :: rest) = some (field, rest) := by
  have hfield : ∀ x ∈ field, decide (x ≠ sep) = true := by
    intro x hx
    rw [decide_eq_true_eq]
    rintro rfl
    exact h hx
  have hdrop : (field ++ sep :: rest).dropWhile (· ≠ sep) = sep :: rest := by
    rw [List.dropWhile_append_of_pos hfield, List.dropWhile_cons_of_neg (by simp)]
  have htake : (field ++ sep :: rest).takeWhile (· ≠ sep) = field := by
    rw [List.takeWhile_append_of_pos hfield, List.takeWhile_cons_of_neg (by simp), List.append_nil]
  rw [splitFirst, hdrop, htake]

theorem splitFirst_eq_some (h : splitFirst sep text = some (field, rest)) :
    text = field ++ sep :: rest ∧ sep ∉ field := by
  unfold splitFirst at h
  split at h
  · cases h
  · next x after hdrop =>
    cases h
    have hx : x = sep := by
      have hhead := List.head?_dropWhile_not (fun y => decide (y ≠ sep)) text
      rw [hdrop, List.head?_cons] at hhead
      simpa using hhead
    constructor
    · rw [hx] at hdrop
      rw [← hdrop, List.takeWhile_append_dropWhile]
    · intro hsep
      simpa using List.mem_takeWhile_imp hsep

theorem splitFirst_eq_none (h : sep ∉ text) : splitFirst sep text = none := by
  cases hsplit : splitFirst sep text with
  | none => rfl
  | some pair =>
    rw [(splitFirst_eq_some hsplit).1] at h
    exact absurd (List.mem_append_right _ List.mem_cons_self) h

theorem splitLast_append (h : sep ∉ rest) (field : List α) : splitLast sep (field ++ sep :: rest) = some (field, rest) := by
  have hreverse : (field ++ sep :: rest).reverse = rest.reverse ++ sep :: field.reverse := by simp
  rw [splitLast, hreverse, splitFirst_append (by simpa using h)]
  simp

/-- No piece has the delimiter in it. -/
theorem not_mem_of_mem_splitOn {piece : List α} (h : piece ∈ text.splitOn sep) : sep ∉ piece := by
  induction text generalizing piece with
  | nil =>
    obtain rfl : piece = [] := by simpa using h
    simp
  | cons x text ih =>
    rw [List.splitOn_cons_eq_if_modifyHead] at h
    split at h
    · rcases List.mem_cons.mp h with rfl | h
      · simp
      · exact ih h
    · next hx =>
      cases hpieces : text.splitOn sep with
      | nil => exact absurd hpieces (List.splitOn_ne_nil sep text)
      | cons first pieces =>
        rw [hpieces] at h ih
        rcases List.mem_cons.mp h with rfl | h
        · have hx : x ≠ sep := by simpa using hx
          simpa [Ne.symm hx] using ih List.mem_cons_self
        · exact ih (List.mem_cons_of_mem first h)

/-- Up to the first delimiter, if there is one. -/
theorem splitOn_cases (sep : α) (text : List α) :
    (sep ∉ text ∧ text.splitOn sep = [text]) ∨
      ∃ first rest, text = first ++ sep :: rest ∧ sep ∉ first ∧ text.splitOn sep = first :: rest.splitOn sep := by
  by_cases h : sep ∈ text
  · obtain ⟨first, rest, rfl, hfirst⟩ := List.eq_append_cons_of_mem h
    exact .inr ⟨first, rest, rfl, hfirst, List.splitOn_append_cons_self_of_not_mem hfirst rest⟩
  · exact .inl ⟨h, List.splitOn_eq_singleton h⟩

/-- Joined texts are cut into the pieces of each. -/
theorem splitOn_intercalate_flatMap {texts : List (List α)} (h : texts ≠ []) :
    ([sep].intercalate texts).splitOn sep = texts.flatMap (·.splitOn sep) := by
  induction texts with
  | nil => exact absurd rfl h
  | cons first texts ih =>
    cases texts with
    | nil => simp
    | cons next texts =>
      rw [List.intercalate_cons_cons, List.append_assoc, List.singleton_append, List.splitOn_append_cons_self,
        ih (by simp)]
      rfl

theorem mem_intercalate {α : Type} {x : α} {sep : List α} {texts : List (List α)} :
    x ∈ sep.intercalate texts → x ∈ sep ∨ ∃ text ∈ texts, x ∈ text := by
  induction texts with
  | nil => simp
  | cons text texts ih =>
    cases texts with
    | nil =>
      intro h
      exact .inr ⟨text, List.mem_cons_self, by simpa using h⟩
    | cons next texts =>
      rw [List.intercalate_cons_cons, List.mem_append, List.mem_append]
      rintro ((h | h) | h)
      · exact .inr ⟨text, List.mem_cons_self, h⟩
      · exact .inl h
      · rcases ih h with h | ⟨t, ht, hx⟩
        · exact .inl h
        · exact .inr ⟨t, List.mem_cons_of_mem text ht, hx⟩

theorem mem_intercalate_of_mem {α : Type} {x : α} {sep : List α} {texts : List (List α)} {text : List α}
    (h : text ∈ texts) (hx : x ∈ text) : x ∈ sep.intercalate texts := by
  induction texts with
  | nil => cases h
  | cons first texts ih =>
    cases texts with
    | nil =>
      rw [List.mem_singleton.mp h] at hx
      simpa using hx
    | cons next texts =>
      rw [List.intercalate_cons_cons, List.mem_append, List.mem_append]
      rcases List.mem_cons.mp h with rfl | h
      · exact .inl (.inl hx)
      · exact .inr (ih h)

/-! ## So many fields -/

variable {β γ : Type}

def readMany (read : List β → Option (γ × List β)) : Nat → List β → Option (List γ × List β)
  | 0, cs => some ([], cs)
  | n + 1, cs => (read cs).bind fun p => (readMany read n p.2).map fun q => (p.1 :: q.1, q.2)

/-- Fields that are each read after their text are read one after the other. -/
theorem readMany_flatMap {read : List β → Option (γ × List β)} {write : γ → List β} {fields : List γ}
    (h : ∀ f ∈ fields, ∀ rest, read (write f ++ rest) = some (f, rest)) (rest : List β) :
    readMany read fields.length (fields.flatMap write ++ rest) = some (fields, rest) := by
  induction fields with
  | nil => rfl
  | cons f fields ih =>
    rw [List.length_cons, List.flatMap_cons, List.append_assoc, readMany, h f List.mem_cons_self]
    simp only [Option.bind_some]
    rw [ih fun g hg => h g (List.mem_cons_of_mem f hg)]
    rfl

theorem readMany_forall {read : List β → Option (γ × List β)} {p : γ → Prop}
    (h : ∀ cs f rest, read cs = some (f, rest) → p f) {n : Nat} {cs rest : List β} {fields : List γ}
    (hread : readMany read n cs = some (fields, rest)) : ∀ f ∈ fields, p f := by
  induction n generalizing cs fields with
  | zero =>
    cases hread
    simp
  | succ n ih =>
    obtain ⟨⟨f, after⟩, hf, hrest⟩ := Option.bind_eq_some_iff.mp hread
    obtain ⟨⟨more, last⟩, hmore, heq⟩ := Option.map_eq_some_iff.mp hrest
    cases heq
    exact List.forall_mem_cons.mpr ⟨h cs f after hf, ih hmore⟩

theorem mapM_eq_some_iff {read : β → Option γ} {xs : List β} {ys : List γ} :
    xs.mapM read = some ys ↔ xs.map read = ys.map some := by
  induction xs generalizing ys with
  | nil => cases ys <;> simp
  | cons x xs ih =>
    rw [List.mapM_cons, Option.bind_eq_bind, List.map_cons]
    cases read x with
    | none => cases ys <;> simp
    | some y =>
      cases ys with
      | nil => cases hrest : xs.mapM read <;> simp
      | cons z ys =>
        rw [List.map_cons, List.cons.injEq, ← ih]
        cases xs.mapM read <;> simp

theorem mapM_eq_some_map {read : β → Option γ} {result : β → γ} {xs : List β} (h : ∀ x ∈ xs, read x = some (result x)) :
    xs.mapM read = some (xs.map result) := by
  rw [mapM_eq_some_iff, List.map_map]
  exact List.map_congr_left h

theorem mapM_map_eq_some {read : β → Option γ} {write : γ → β} {ys : List γ} (h : ∀ y ∈ ys, read (write y) = some y) :
    (ys.map write).mapM read = some ys := by
  rw [mapM_eq_some_iff, List.map_map]
  exact List.map_congr_left h

/-- What is read of groups, put together, is read group by group. -/
theorem mapM_flatMap_flatten {δ : Type} (read : β → Option (List γ)) (groups : δ → List β) (ds : List δ) :
    ((ds.flatMap groups).mapM read).map List.flatten =
      (ds.mapM fun d => ((groups d).mapM read).map List.flatten).map List.flatten := by
  induction ds with
  | nil => rfl
  | cons d ds ih =>
    rw [List.flatMap_cons, List.mapM_append, List.mapM_cons]
    simp only [Option.bind_eq_bind, Option.pure_def] at ih ⊢
    cases hfirst : (groups d).mapM read with
    | none => rfl
    | some first =>
      cases hrest : (ds.flatMap groups).mapM read with
      | none =>
        rw [hrest] at ih
        cases hds : ds.mapM fun d => ((groups d).mapM read).map List.flatten with
        | none => rfl
        | some more => rw [hds] at ih; cases ih
      | some rest =>
        rw [hrest] at ih
        cases hds : ds.mapM fun d => ((groups d).mapM read).map List.flatten with
        | none => rw [hds] at ih; cases ih
        | some more =>
          rw [hds] at ih
          simpa using ih

theorem length_flatMap_le {f g : β → List γ} {xs : List β} (h : ∀ x ∈ xs, (g x).length ≤ (f x).length) :
    (xs.flatMap g).length ≤ (xs.flatMap f).length := by
  induction xs with
  | nil => simp
  | cons x xs ih =>
    have hx := h x List.mem_cons_self
    have hxs := ih fun y hy => h y (List.mem_cons_of_mem x hy)
    simp only [List.flatMap_cons, List.length_append]
    omega

/-- Two ways to fill the same list, of which one never gives less, are the same everywhere. -/
theorem eq_of_flatMap_eq {f g : β → List γ} {xs : List β} (hle : ∀ x ∈ xs, (g x).length ≤ (f x).length)
    (h : xs.flatMap f = xs.flatMap g) : ∀ x ∈ xs, f x = g x := by
  induction xs with
  | nil => simp
  | cons x xs ih =>
    have hle' : ∀ y ∈ xs, (g y).length ≤ (f y).length := fun y hy => hle y (List.mem_cons_of_mem x hy)
    have hrest := length_flatMap_le hle'
    rw [List.flatMap_cons, List.flatMap_cons] at h
    have hlength := congrArg List.length h
    rw [List.length_append, List.length_append] at hlength
    have hx := hle x List.mem_cons_self
    obtain ⟨hfirst, hmore⟩ := List.append_inj h (by omega)
    exact List.forall_mem_cons.mpr ⟨hfirst, ih hle' hmore⟩

theorem exists_of_mapM_eq_some {read : β → Option γ} {xs : List β} {ys : List γ} (h : xs.mapM read = some ys) :
    ∀ y ∈ ys, ∃ x ∈ xs, read x = some y := by
  intro y hy
  have hmem : some y ∈ xs.map read := by
    rw [mapM_eq_some_iff.mp h]
    exact List.mem_map_of_mem hy
  obtain ⟨x, hx, hread⟩ := List.mem_map.mp hmem
  exact ⟨x, hx, hread⟩

theorem isSome_of_mapM_eq_some {read : β → Option γ} {xs : List β} {ys : List γ} (h : xs.mapM read = some ys) :
    ∀ x ∈ xs, ∃ y, read x = some y := by
  intro x hx
  have hmem : read x ∈ ys.map some := by
    rw [← mapM_eq_some_iff.mp h]
    exact List.mem_map_of_mem hx
  obtain ⟨y, -, hy⟩ := List.mem_map.mp hmem
  exact ⟨y, hy.symm⟩

end Occp.Lib
