import Occp.Lib.EditDistance

/-!
# Edit distance by rows (`EventBridge._levenshtein`)
-/

namespace Occp.Adapters

open Lib (distance IsEditDistance)

/-! ## The computation -/

/-- The row of `c1`, which is the character number `i` of the first string. -/
def currRow (s2 : List Char) (prevRow : List Nat) (c1 : Char) (i : Nat) : List Nat :=
  s2.zipIdx.foldl (fun currRow c2 =>
    let insertions := prevRow.getD (c2.2 + 1) 0 + 1
    let deletions := currRow.getD c2.2 0 + 1
    let substitutions := prevRow.getD c2.2 0 + if c1 = c2.1 then 0 else 1
    currRow ++ [min insertions (min deletions substitutions)]) [i + 1]

/-- What follows the swap of the strings. -/
def byRows (s1 s2 : List Char) : Nat :=
  if s2.length = 0 then s1.length
  else (s1.zipIdx.foldl (fun prevRow c1 => currRow s2 prevRow c1.1 c1.2) (List.range (s2.length + 1))).getLastD 0

def levenshtein (s1 s2 : String) : Nat :=
  if s1.length < s2.length then byRows s2.toList s1.toList else byRows s1.toList s2.toList

/-! ## What the rows hold -/

/-- How far the prefix `xs` of the one string is from each prefix of the other one. -/
def distances (xs s2 : List Char) : List Nat :=
  (List.range (s2.length + 1)).map fun j => distance xs.reverse (s2.take j).reverse

theorem length_distances (xs s2 : List Char) : (distances xs s2).length = s2.length + 1 := by
  simp [distances]

theorem getD_distances (xs s2 : List Char) {j : Nat} (h : j ≤ s2.length) :
    (distances xs s2).getD j 0 = distance xs.reverse (s2.take j).reverse := by
  have hlt : j < s2.length + 1 := by omega
  simp [distances, hlt]

theorem distances_concat (xs done : List Char) (c2 : Char) :
    distances xs (done ++ [c2]) = distances xs done ++ [distance xs.reverse (c2 :: done.reverse)] := by
  unfold distances
  rw [List.length_append, List.length_singleton, List.range_succ, List.map_append, List.map_singleton]
  congr 1
  · refine List.map_congr_left fun j hj => ?_
    have hle := List.mem_range.mp hj
    rw [List.take_append_of_le_length (by omega)]
  · rw [List.take_of_length_le (by simp), List.reverse_append]
    rfl

/-- The loop over the second string, after the part of it that is done. -/
theorem currRow_loop (xs : List Char) (c1 : Char) (done todo : List Char) :
    (todo.zipIdx done.length).foldl (fun currRow c2 =>
      let insertions := (distances xs (done ++ todo)).getD (c2.2 + 1) 0 + 1
      let deletions := currRow.getD c2.2 0 + 1
      let substitutions := (distances xs (done ++ todo)).getD c2.2 0 + if c1 = c2.1 then 0 else 1
      currRow ++ [min insertions (min deletions substitutions)]) (distances (xs ++ [c1]) done) =
    distances (xs ++ [c1]) (done ++ todo) := by
  induction todo generalizing done with
  | nil => rw [List.append_nil, List.zipIdx_nil, List.foldl_nil]
  | cons c2 todo ih =>
    have hprev : (distances xs (done ++ c2 :: todo)).getD done.length 0 = distance xs.reverse done.reverse := by
      rw [getD_distances _ _ (by simp), List.take_left]
    have hnext : (distances xs (done ++ c2 :: todo)).getD (done.length + 1) 0 = distance xs.reverse (c2 :: done.reverse) := by
      have htake : (done ++ c2 :: todo).take (done.length + 1) = done ++ [c2] := by
        rw [List.take_append, List.take_of_length_le (by omega)]
        simp
      rw [getD_distances _ _ (by simp), htake, List.reverse_append]
      rfl
    have hcurr : (distances (xs ++ [c1]) done).getD done.length 0 = distance (c1 :: xs.reverse) done.reverse := by
      rw [getD_distances _ _ le_rfl, List.take_length, List.reverse_append]
      rfl
    have hrow : distances (xs ++ [c1]) (done ++ [c2]) = distances (xs ++ [c1]) done ++
        [min (distance xs.reverse (c2 :: done.reverse) + 1) (min (distance (c1 :: xs.reverse) done.reverse + 1)
          (distance xs.reverse done.reverse + if c1 = c2 then 0 else 1))] := by
      rw [distances_concat, List.reverse_append, ← Lib.distance_cons_cons]
      rfl
    rw [List.zipIdx_cons, List.foldl_cons]
    dsimp only
    rw [hprev, hnext, hcurr, ← hrow]
    have hsplit : done ++ c2 :: todo = (done ++ [c2]) ++ todo := by simp
    have hlength : done.length + 1 = (done ++ [c2]).length := by simp
    rw [hsplit, hlength]
    exact ih (done ++ [c2])

theorem currRow_eq (xs s2 : List Char) (c1 : Char) :
    currRow s2 (distances xs s2) c1 xs.length = distances (xs ++ [c1]) s2 := by
  have hstart : distances (xs ++ [c1]) [] = [xs.length + 1] := by simp [distances]
  have hloop := currRow_loop xs c1 [] s2
  rw [hstart] at hloop
  exact hloop

/-- The loop over the first string. -/
theorem rows_loop (s2 done todo : List Char) :
    (todo.zipIdx done.length).foldl (fun prevRow c1 => currRow s2 prevRow c1.1 c1.2) (distances done s2) =
      distances (done ++ todo) s2 := by
  induction todo generalizing done with
  | nil => rw [List.append_nil, List.zipIdx_nil, List.foldl_nil]
  | cons c1 todo ih =>
    have hsplit : done ++ c1 :: todo = (done ++ [c1]) ++ todo := by simp
    have hlength : done.length + 1 = (done ++ [c1]).length := by simp
    rw [List.zipIdx_cons, List.foldl_cons]
    dsimp only
    rw [currRow_eq, hsplit, hlength]
    exact ih (done ++ [c1])

theorem byRows_eq (s1 s2 : List Char) : byRows s1 s2 = distance s1.reverse s2.reverse := by
  unfold byRows
  split
  · next hempty =>
    rw [List.length_eq_zero_iff.mp hempty, List.reverse_nil, Lib.distance_nil_right, List.length_reverse]
  · have hstart : List.range (s2.length + 1) = distances [] s2 := by
      have hmap : ∀ j ∈ List.range (s2.length + 1), distance ([] : List Char).reverse (s2.take j).reverse = id j := by
        intro j hj
        have hle := List.mem_range.mp hj
        rw [List.reverse_nil, Lib.distance_nil, List.length_reverse, List.length_take, id]
        omega
      rw [distances, List.map_congr_left hmap, List.map_id]
    have hlast : (distances s1 s2).getLastD 0 = distance s1.reverse s2.reverse := by
      rw [distances, List.range_succ, List.map_append, List.map_singleton, List.getLastD_concat, List.take_length]
    have hrows := rows_loop s2 [] s1
    rw [hstart]
    exact (congrArg (·.getLastD 0) hrows).trans hlast

/-- **The last entry of the last row is the edit distance of the two strings, in either order.** -/
theorem levenshtein_isEditDistance (s1 s2 : String) :
    IsEditDistance s1.toList s2.toList (levenshtein s1 s2) ∧ levenshtein s1 s2 = levenshtein s2 s1 := by
  have hdistance (a b : String) : IsEditDistance a.toList b.toList (levenshtein a b) := by
    unfold levenshtein
    split
    · rw [byRows_eq]
      exact (Lib.isEditDistance_distance _ _).of_reverse.symm
    · rw [byRows_eq]
      exact (Lib.isEditDistance_distance _ _).of_reverse
  exact ⟨hdistance s1 s2, (hdistance s1 s2).unique (hdistance s2 s1).symm⟩

example : levenshtein "kitten" "sitting" = 3 := by decide +kernel

end Occp.Adapters
