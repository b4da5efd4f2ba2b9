import Occp.Lib.PosixPath

/-!
# Staying below a directory

A path that goes on after another one leads below where that one leads, as long as it never climbs above
it.
-/

namespace Occp.Lib.PosixPath

/-- Where a path leads from a working directory. -/
def resolve (cwd : List Name) (path : List Char) : List Name :=
  walk (if path.head? = some '/' then [] else cwd) path

/-- The segments climb above where they begin; `depth` names are below it already. -/
def climbs : Nat → List Name → Bool
  | _, [] => false
  | depth, s :: ss =>
    if s = [] ∨ s = ['.'] then climbs depth ss
    else if s = ['.', '.'] then depth == 0 || climbs (depth - 1) ss
    else climbs (depth + 1) ss

variable {dir cwd : List Name} {path rest : List Char}

theorem prefix_foldl_enter {depth : Nat} {below : List Name} {ss : List Name} (hbelow : below.length = depth)
    (h : climbs depth ss = false) : dir <+: ss.foldl enter (dir ++ below) := by
  induction ss generalizing depth below with
  | nil => exact List.prefix_append dir below
  | cons s ss ih =>
    rw [climbs] at h
    rw [List.foldl_cons, enter]
    split
    · next hskip =>
      rw [if_pos hskip] at h
      exact ih hbelow h
    · next hskip =>
      rw [if_neg hskip] at h
      split
      · next hdots =>
        rw [if_pos hdots, Bool.or_eq_false_iff, beq_eq_false_iff_ne] at h
        have hne : below ≠ [] := by
          rintro rfl
          exact h.1 hbelow.symm
        rw [List.dropLast_append_of_ne_nil hne]
        exact ih (by rw [List.length_dropLast, hbelow]) h.2
      · next hdots =>
        rw [if_neg hdots] at h
        rw [List.append_assoc]
        exact ih (by rw [List.length_append, hbelow, List.length_singleton]) h

theorem prefix_walk (h : climbs 0 (segments rest) = false) : dir <+: walk dir rest := by
  have hfold : dir <+: (segments rest).foldl enter (dir ++ []) := prefix_foldl_enter rfl h
  rwa [List.append_nil] at hfold

/-- What is after the prefix begins a segment of its own and does not climb above the prefix. -/
def Descends (before rest : List Char) : Prop :=
  (if before = [] then rest.head? ≠ some '/'
    else rest = [] ∨ before.getLast? = some '/' ∨ rest.head? = some '/') ∧
  climbs 0 (segments rest) = false

theorem walk_nil (dir : List Name) : walk dir [] = dir := by
  simp [walk, segments, enter]

theorem resolve_prefix (h : Descends path rest) : resolve cwd path <+: resolve cwd (path ++ rest) := by
  obtain ⟨hboundary, hclimbs⟩ := h
  unfold resolve
  split at hboundary
  · next hempty =>
    rw [hempty, List.nil_append, List.head?_nil, if_neg (by simp), if_neg hboundary, walk_nil]
    exact prefix_walk hclimbs
  · next hne =>
    have hhead : (path ++ rest).head? = path.head? := List.head?_append_of_ne_nil path hne
    rw [hhead]
    generalize (if path.head? = some '/' then [] else cwd) = start
    rcases hboundary with rfl | hlast | hhead'
    · exact ⟨[], by rw [List.append_nil, List.append_nil]⟩
    · obtain ⟨init, rfl⟩ := List.getLast?_eq_some_iff.mp hlast
      rw [List.append_assoc, List.singleton_append, walk_append, walk_append, walk_nil]
      exact prefix_walk hclimbs
    · cases rest with
      | nil => cases hhead'
      | cons c rest =>
        obtain rfl : c = '/' := Option.some.inj hhead'
        have hsegments : segments ('/' :: rest) = [] :: segments rest := List.splitOn_append_cons_self [] rest
        rw [hsegments, climbs, if_pos (.inl rfl)] at hclimbs
        rw [walk_append]
        exact prefix_walk hclimbs

/-- Up and up to the root. -/
def climb (n : Nat) : List Char := (List.replicate n "/..".toList).flatten

theorem walk_climb (n : Nat) (dir : List Name) (path : List Char) :
    walk dir (path ++ climb n) = (walk dir path).take ((walk dir path).length - n) := by
  induction n generalizing path with
  | zero => simp [climb]
  | succ n ih =>
    have hclimb : path ++ climb (n + 1) = (path ++ "/..".toList) ++ climb n := by
      simp [climb, List.replicate_succ]
    have hup : walk dir (path ++ "/..".toList) = (walk dir path).dropLast := walk_append dir path ['.', '.']
    rw [hclimb, ih, hup, List.length_dropLast, List.dropLast_eq_take, List.take_take]
    congr 1
    omega

/-- Enough steps up lead from any path to the root. -/
theorem resolve_climb (cwd : List Name) (path : List Char) :
    ∃ n, resolve cwd (path ++ climb n) = [] := by
  by_cases hempty : path = []
  · refine ⟨1, ?_⟩
    rw [hempty]
    rfl
  · refine ⟨(resolve cwd path).length, ?_⟩
    have hhead : (path ++ climb (resolve cwd path).length).head? = path.head? := List.head?_append_of_ne_nil path hempty
    rw [resolve, hhead, walk_climb, ← resolve, Nat.sub_self, List.take_zero]

end Occp.Lib.PosixPath
