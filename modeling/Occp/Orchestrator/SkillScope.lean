import Occp.Lib.Descent

/-!
# File scopes of skills (`orchestrator/skill_manifest.py`)

A path is allowed when its text begins with a listed path. A path below a listed directory is another
matter: names may only begin alike, and `..` leads up again.
-/

namespace Occp.Skills

open Lib.PosixPath

/-- An empty list is for reading anything. -/
structure FileScope where
  allowedPaths : List String := []
  readOnly : Bool := true

def FileScope.isPathAllowed (scope : FileScope) (path : String) : Bool :=
  scope.allowedPaths.any (fun allowed => allowed.toList.isPrefixOf path.toList) ||
    (scope.allowedPaths.length == 0 && scope.readOnly)

structure SkillManifest where
  filesystem : FileScope := {}

def checkFileAccess (manifest : SkillManifest) (targetPath : String) : Bool :=
  manifest.filesystem.isPathAllowed targetPath

/-- From the working directory the path leads to a listed directory or below one. -/
def Contained (cwd : List Name) (scope : FileScope) (path : String) : Prop :=
  ∃ allowed ∈ scope.allowedPaths, resolve cwd allowed.toList <+: resolve cwd path.toList

instance (cwd : List Name) (scope : FileScope) (path : String) : Decidable (Contained cwd scope path) :=
  inferInstanceAs (Decidable (∃ _ ∈ _, _))

theorem isPathAllowed_iff {scope : FileScope} (hne : scope.allowedPaths ≠ []) (path : String) :
    scope.isPathAllowed path = true ↔ ∃ allowed ∈ scope.allowedPaths, allowed.toList <+: path.toList := by
  have hlength : scope.allowedPaths.length ≠ 0 := fun h => hne (List.length_eq_zero_iff.mp h)
  simp [FileScope.isPathAllowed, hlength]

/-- A path that goes straight down from each listed path that it begins with is contained. -/
theorem contained_of_descends {cwd : List Name} {scope : FileScope} (hne : scope.allowedPaths ≠ []) {path : String}
    (h : ∀ allowed ∈ scope.allowedPaths, ∀ rest, path.toList = allowed.toList ++ rest →
      Descends allowed.toList rest ∨ Contained cwd scope path)
    (hallowed : scope.isPathAllowed path = true) : Contained cwd scope path := by
  obtain ⟨allowed, hmem, rest, hrest⟩ := (isPathAllowed_iff hne path).mp hallowed
  rcases h allowed hmem rest hrest.symm with hdescends | hcontained
  · refine ⟨allowed, hmem, ?_⟩
    rw [← hrest]
    exact resolve_prefix hdescends
  · exact hcontained

/-- A scope without the root lets a path through that climbs to it. -/
theorem root_of_contains {cwd : List Name} {scope : FileScope} (hne : scope.allowedPaths ≠ [])
    (h : ∀ path, scope.isPathAllowed path = true → Contained cwd scope path) :
    ∃ allowed ∈ scope.allowedPaths, resolve cwd allowed.toList = [] := by
  obtain ⟨first, hfirst⟩ := List.exists_mem_of_ne_nil _ hne
  obtain ⟨n, hroot⟩ := resolve_climb cwd first.toList
  have hallowed : scope.isPathAllowed (String.ofList (first.toList ++ climb n)) = true := by
    rw [isPathAllowed_iff hne, String.toList_ofList]
    exact ⟨first, hfirst, List.prefix_append _ _⟩
  obtain ⟨allowed, hmem, hprefix⟩ := h _ hallowed
  rw [String.toList_ofList, hroot] at hprefix
  exact ⟨allowed, hmem, List.prefix_nil.mp hprefix⟩

/-- Only a scope with the root contains every path that it lets through; with any other, a path is
contained as long as it goes straight down from the listed paths that it begins with, or comes back. -/
theorem contained_iff (cwd : List Name) (scope : FileScope) (hne : scope.allowedPaths ≠ []) :
    ((∀ path, scope.isPathAllowed path = true → Contained cwd scope path) ↔
      ∃ allowed ∈ scope.allowedPaths, resolve cwd allowed.toList = []) ∧
    ∀ path, (scope.isPathAllowed path = true → Contained cwd scope path) ↔
      ∀ allowed ∈ scope.allowedPaths, ∀ rest, path.toList = allowed.toList ++ rest →
        Descends allowed.toList rest ∨ Contained cwd scope path := by
  refine ⟨⟨root_of_contains hne, ?_⟩, fun path => ⟨fun h allowed hmem rest hrest => ?_, contained_of_descends hne⟩⟩
  · rintro ⟨allowed, hmem, hroot⟩ path -
    exact ⟨allowed, hmem, hroot ▸ List.nil_prefix⟩
  · exact .inr (h ((isPathAllowed_iff hne path).mpr ⟨allowed, hmem, rest, hrest.symm⟩))

def dataScope : FileScope := { allowedPaths := ["/data"] }

theorem contained_iff_data :
    ((∀ path, dataScope.isPathAllowed path = true → Contained [] dataScope path) ↔
      ∃ allowed ∈ dataScope.allowedPaths, resolve [] allowed.toList = []) ∧
    ∀ path, (dataScope.isPathAllowed path = true → Contained [] dataScope path) ↔
      ∀ allowed ∈ dataScope.allowedPaths, ∀ rest, path.toList = allowed.toList ++ rest →
        Descends allowed.toList rest ∨ Contained [] dataScope path :=
  contained_iff [] dataScope (by decide)

/-- A sibling whose name begins alike, and a way up, are let through. -/
theorem sibling_and_climb_allowed :
    (dataScope.isPathAllowed "/data-private/key" = true ∧ ¬ Contained [] dataScope "/data-private/key") ∧
      (dataScope.isPathAllowed "/data/../etc/passwd" = true ∧ ¬ Contained [] dataScope "/data/../etc/passwd") := by
  decide

end Occp.Skills
