import Occp.Errors
import Occp.Lib.PosixPath

/-!
# Files over the bridge (`adapters/mcp_bridge.py`)

The file tools are confined to a workspace. Each is modelled up to what it asks of the file system.
-/

namespace Occp.Adapters

open Lib.PosixPath

inductive FileRequest where
  | read (path : List Char)
  | write (path dir : List Char) (content : Value)
  | list (path : List Char)

/-- The file or directory itself. -/
def FileRequest.path : FileRequest → List Char
  | .read path => path
  | .write path _ _ => path
  | .list path => path

def allowedRoot : List Char := "/tmp/occp-workspace".toList

/-- `os.path.dirname`. -/
def dirname (path : List Char) : List Char :=
  let head := (path.reverse.dropWhile (· ≠ '/')).reverse
  if head.all (· == '/') then head else (head.reverse.dropWhile (· == '/')).reverse

/-- What every file tool does with its path; the working directory never matters. -/
def confine (path : String) : Except PyError (List Char) :=
  let absPath := normpath (join allowedRoot (path.toList.dropWhile (· == '/')))
  if allowedRoot.isPrefixOf absPath then .ok absPath
  else .error (.other "PermissionError" s!"Path escape attempt: {path}")

/-- From any working directory, `os.path.abspath` of the joined path is the path that is tested. -/
theorem abspath_join_allowedRoot (cwd path : List Char) :
    abspath cwd (join allowedRoot path) = normpath (join allowedRoot path) := by
  have habsolute : (join allowedRoot path).head? = some '/' := by
    unfold join
    split
    · assumption
    · split <;> rfl
  unfold abspath
  rw [if_pos habsolute]

/-- `params.get("path", "")`, for what has `lstrip`. -/
def pathParam (params : Dict Value) : Except PyError String :=
  match (params.get? "path").getD (.str "") with
  | .str path => .ok path
  | _ => .error (.other "AttributeError" "no attribute 'lstrip'")

/-- The check `if not path`, before anything else is done. -/
def requirePath (params : Dict Value) : Except PyError Unit :=
  if ((params.get? "path").getD (.str "")).truthy then .ok () else .error (.valueError "path required")

def filesystemRead (params : Dict Value) : Except PyError FileRequest := do
  requirePath params
  let path ← pathParam params
  let absPath ← confine path
  return .read absPath

def filesystemWrite (params : Dict Value) : Except PyError FileRequest := do
  let content := (params.get? "content").getD (.str "")
  requirePath params
  let path ← pathParam params
  let absPath ← confine path
  let dir := if dirname absPath = [] then allowedRoot else dirname absPath
  return .write absPath dir content

/-- The one tool that takes an empty path. -/
def filesystemList (params : Dict Value) : Except PyError FileRequest := do
  let path ← pathParam params
  let absPath ← confine path
  return .list absPath

inductive FileTool where
  | read
  | write
  | list
  deriving DecidableEq

def FileTool.run : FileTool → Dict Value → Except PyError FileRequest
  | .read => filesystemRead
  | .write => filesystemWrite
  | .list => filesystemList

/-! ## Where a path leads -/

def workspace : List Name := ["tmp".toList, "occp-workspace".toList]

/-- The workspace itself, or something below it, name by name. -/
def InWorkspace (path : List Char) : Prop := workspace <+: walk [] path

instance (path : List Char) : Decidable (InWorkspace path) := inferInstanceAs (Decidable (workspace <+: walk [] path))

/-- The path leads to a neighbour of the workspace whose name goes on where that of the workspace ends. -/
def LeadsBeside (path : String) : Prop :=
  ∃ c more rest, walk workspace path.toList = "tmp".toList :: ("occp-workspace".toList ++ c :: more) :: rest

theorem workspace_names : ∀ n ∈ workspace, IsName n := by
  intro n hn
  simp [workspace] at hn
  rcases hn with rfl | rfl
  · exact ⟨by decide, by decide, by decide, by decide⟩
  · exact ⟨by decide, by decide, by decide, by decide⟩

theorem render_workspace : render workspace = allowedRoot := by decide

theorem walk_allowedRoot : walk [] allowedRoot = workspace := by decide

/-- The path that is confined is where the path leads from the workspace. -/
theorem normpath_joined (path : List Char) :
    normpath (join allowedRoot (path.dropWhile (· == '/'))) = render (walk workspace path) := by
  have hhead : (path.dropWhile (· == '/')).head? ≠ some '/' := by
    intro h
    have hnot := List.head?_dropWhile_not (· == '/') path
    rw [h] at hnot
    simp at hnot
  have hjoin : join allowedRoot (path.dropWhile (· == '/')) = allowedRoot ++ '/' :: path.dropWhile (· == '/') := by
    have hroot : ¬ (allowedRoot = [] ∨ allowedRoot.getLast? = some '/') := by decide
    unfold join
    rw [if_neg hhead, if_neg hroot]
  have hroot : allowedRoot = '/' :: "tmp/occp-workspace".toList := by decide
  rw [hjoin, ← walk_allowedRoot, ← walk_dropWhile_slash _ path, ← walk_append, hroot]
  exact normpath_eq_render (by simp)

theorem isPrefix_render {dir : List Name} (h : ∀ n ∈ dir, IsName n) :
    allowedRoot <+: render dir ↔ ∃ name rest, dir = "tmp".toList :: name :: rest ∧ "occp-workspace".toList <+: name := by
  cases dir with
  | nil =>
    constructor
    · intro hprefix
      exact absurd hprefix (by decide)
    · rintro ⟨name, rest, heq, -⟩
      cases heq
  | cons n dir =>
    rw [← render_workspace, render_cons, workspace, render_cons]
    have hinit : ∀ m ∈ ["tmp".toList], '/' ∉ m := by decide
    exact flatMap_isPrefix_iff hinit (by decide) fun m hm => (h m hm).no_slash

theorem confine_eq_ok {path : String} {absPath : List Char} :
    confine path = .ok absPath ↔ absPath = render (walk workspace path.toList) ∧
      ∃ name rest, walk workspace path.toList = "tmp".toList :: name :: rest ∧ "occp-workspace".toList <+: name := by
  unfold confine
  dsimp only
  rw [normpath_joined, ← isPrefix_render (names_walk workspace_names path.toList), ← List.isPrefixOf_iff_prefix]
  split
  · next h => simp [h, eq_comm]
  · next h => simp [h]

/-- What a tool asks for once its path is confined. -/
def FileTool.request (content : Value) (absPath : List Char) : FileTool → FileRequest
  | .read => .read absPath
  | .write => .write absPath (if dirname absPath = [] then allowedRoot else dirname absPath) content
  | .list => .list absPath

@[simp] theorem FileTool.request_path (tool : FileTool) (content : Value) (absPath : List Char) :
    (tool.request content absPath).path = absPath := by
  cases tool <;> rfl

theorem requirePath_eq (path : String) (more : Dict Value) :
    requirePath (("path", .str path) :: more) = if path = "" then .error (.valueError "path required") else .ok () := by
  by_cases hpath : path = "" <;> simp [requirePath, Dict.get?, Value.truthy, hpath]

theorem pathParam_eq (path : String) (more : Dict Value) : pathParam (("path", .str path) :: more) = .ok path := by
  simp [pathParam, Dict.get?]

/-- The tools do the same with a path; only `filesystem.list` takes an empty one. -/
theorem FileTool.run_eq (tool : FileTool) (path : String) (more : Dict Value) :
    tool.run (("path", .str path) :: more) =
      if path = "" ∧ tool ≠ .list then .error (.valueError "path required")
      else (confine path).map fun absPath =>
        tool.request ((Dict.get? (("path", .str path) :: more) "content").getD (.str "")) absPath := by
  cases tool with
  | read =>
    change filesystemRead _ = _
    unfold filesystemRead
    simp only [requirePath_eq, pathParam_eq]
    by_cases hpath : path = ""
    · simp [hpath, bind, Except.bind]
    · simp only [hpath, if_false, false_and]
      cases hconfine : confine path <;> simp [hconfine, Except.map, bind, Except.bind, pure, Except.pure, request]
  | write =>
    change filesystemWrite _ = _
    unfold filesystemWrite
    simp only [requirePath_eq, pathParam_eq]
    by_cases hpath : path = ""
    · simp [hpath, bind, Except.bind]
    · simp only [hpath, if_false, false_and]
      cases hconfine : confine path <;> simp [hconfine, Except.map, bind, Except.bind, pure, Except.pure, request]
  | list =>
    change filesystemList _ = _
    unfold filesystemList
    simp only [pathParam_eq, ne_eq, not_true_eq_false, and_false, if_false]
    cases hconfine : confine path <;> simp [hconfine, Except.map, bind, Except.bind, pure, Except.pure, request]

/-! ## Confinement -/

/-- Whatever the tool asks for lies in the workspace. -/
def Confined (tool : FileTool) (params : Dict Value) : Prop :=
  ∀ request, tool.run params = .ok request → InWorkspace request.path

theorem inWorkspace_render {dir : List Name} (h : ∀ n ∈ dir, IsName n) : InWorkspace (render dir) ↔ workspace <+: dir := by
  rw [InWorkspace, walk_render h]

/-- **A tool is confined just when its path does not lead beside the workspace.** -/
theorem confined_iff (tool : FileTool) (path : String) (more : Dict Value) :
    Confined tool (("path", .str path) :: more) ↔ ¬ LeadsBeside path := by
  have hnames := names_walk workspace_names path.toList
  unfold Confined
  rw [FileTool.run_eq]
  by_cases hempty : path = "" ∧ tool ≠ .list
  · rw [if_pos hempty, hempty.1]
    simp [LeadsBeside, walk, segments, enter, workspace]
  · rw [if_neg hempty]
    constructor
    · rintro h ⟨c, more', rest, hwalk⟩
      have hconfine : confine path = .ok (render (walk workspace path.toList)) :=
        confine_eq_ok.mpr ⟨rfl, _, rest, hwalk, List.prefix_append _ _⟩
      rw [hconfine] at h
      have hin := h _ rfl
      rw [FileTool.request_path, inWorkspace_render hnames, hwalk] at hin
      simp [workspace] at hin
    · intro hbeside request hrequest
      cases hconfine : confine path with
      | error e =>
        rw [hconfine] at hrequest
        cases hrequest
      | ok absPath =>
        rw [hconfine] at hrequest
        cases hrequest
        obtain ⟨rfl, name, rest, hwalk, t, rfl⟩ := confine_eq_ok.mp hconfine
        rw [FileTool.request_path, inWorkspace_render hnames, hwalk]
        cases t with
        | nil => simp [workspace]
        | cons c t => exact absurd ⟨c, t, rest, hwalk⟩ hbeside

/-- A file beside the workspace is read. -/
theorem sibling_is_read : ¬ ∀ (tool : FileTool) (path : String) (more : Dict Value),
    Confined tool (("path", .str path) :: more) := by
  intro h
  have hread : filesystemRead [("path", .str "../occp-workspace-backup/key")] =
      .ok (.read "/tmp/occp-workspace-backup/key".toList) := by
    rfl
  exact absurd (h .read "../occp-workspace-backup/key" [] _ hread) (by decide)

end Occp.Adapters
