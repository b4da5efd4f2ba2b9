import Mathlib.Data.List.Sort
import Mathlib.Data.List.Dedup
import Occp.Value
import Occp.Errors

/-!
# The worktree sandbox (`autodev/sandbox_worktree.py`)

Git itself is a parameter. Its `diff HEAD` is taken apart into the files that it
reports, and put together again as text, because the text is what the sandbox reads.
-/

namespace Occp.Autodev

/-! ## Git -/

/-- A tree maps paths to files. What is in a file only git looks at. -/
abbrev Tree (File : Type) := Dict File

inductive Side where
  | modified
  | created
  | deleted

/-- One file of `git diff` output. -/
structure FileDiff where
  path : String
  side : Side
  /-- What stands above the hunks: `diff --git`, modes, `index`, `Binary files differ`. -/
  extended : List String
  /-- Empty for a change of mode, of a binary file or of an empty file. -/
  hunks : List String

/-- Git writes such a name in quotes, with escapes (`core.quotePath` is on by default). -/
def quoted (path : String) : Bool :=
  path.toList.any fun c => c.toNat < 0x20 || c.toNat ≥ 0x7F || c == '"' || c == '\\'

def quoteByte (b : Nat) : List Char :=
  match b with
  | 7 => ['\\', 'a']
  | 8 => ['\\', 'b']
  | 9 => ['\\', 't']
  | 10 => ['\\', 'n']
  | 11 => ['\\', 'v']
  | 12 => ['\\', 'f']
  | 13 => ['\\', 'r']
  | 34 => ['\\', '"']
  | 92 => ['\\', '\\']
  | _ =>
    if b < 0x20 || b ≥ 0x7F then
      ['\\', Char.ofNat (48 + b / 64 % 8), Char.ofNat (48 + b / 8 % 8), Char.ofNat (48 + b % 8)]
    else [Char.ofNat b]

/-- The name in a `---` or `+++` line. A tab ends a name that has a space in it. -/
def headerName (side path : String) : List Char :=
  if quoted path then
    '"' :: ((side ++ path).toUTF8.toList.flatMap fun b => quoteByte b.toNat) ++ ['"']
  else side.toList ++ path.toList ++ if path.toList.contains ' ' then ['\t'] else []

def FileDiff.oldLine (d : FileDiff) : List Char :=
  "--- ".toList ++
    match d.side with
    | .created => "/dev/null".toList
    | _ => headerName "a/" d.path

def FileDiff.newLine (d : FileDiff) : List Char :=
  "+++ ".toList ++
    match d.side with
    | .deleted => "/dev/null".toList
    | _ => headerName "b/" d.path

/-- The lines of one file. A file without hunks has no `---` and `+++` lines. -/
def FileDiff.lines (d : FileDiff) : List (List Char) :=
  d.extended.map String.toList ++
    if d.hunks = [] then [] else d.oldLine :: d.newLine :: d.hunks.map String.toList

/-- What `git diff HEAD` prints. -/
def diffText (files : List FileDiff) : String :=
  String.ofList ((files.flatMap FileDiff.lines).flatMap (· ++ ['\n']))

/-- The two commands that the sandbox and the orchestrator run in a worktree. -/
structure Git (File : Type) where
  /-- `git apply --whitespace=nowarn` on the working tree. -/
  apply : Tree File → (patch : String) → Except PyError (Tree File)
  /-- `git diff HEAD`. -/
  diffHead : (head work : Tree File) → Except PyError (List FileDiff)

/-! ## Reading the diff -/

/-- Where `str.splitlines` breaks a line. -/
def isLineBreak (c : Char) : Bool :=
  ['\n', '\r', '\x0b', '\x0c', '\x1c', '\x1d', '\x1e', '\u0085', '\u2028', '\u2029'].contains c

/-- `str.splitlines`, with the current line in reverse. -/
def splitlines : (current : List Char) → List Char → List (List Char)
  | [], [] => []
  | current, [] => [current.reverse]
  | current, '\r' :: '\n' :: cs => current.reverse :: splitlines [] cs
  | current, c :: cs =>
    if isLineBreak c then current.reverse :: splitlines [] cs else splitlines (c :: current) cs

/-- The path that a line of the diff stands for. -/
def headerPath? (line : List Char) : Option String :=
  match line.dropPrefix? "+++ b/".toList with
  | some path => some (String.ofList path)
  | none => (line.dropPrefix? "--- a/".toList).map String.ofList

def parseModifiedFiles (diff : String) : List String :=
  let files := (splitlines [] diff.toList).filterMap headerPath?
  ((files.filter (· != "/dev/null")).dedup).insertionSort (· ≤ ·)

example : parseModifiedFiles "--- a/b.py\n+++ b/b.py\n@@ -1 +1 @@\n-x\n+y\n--- a/a.py\n+++ /dev/null\n" =
    ["a.py", "b.py"] := by decide

/-! ## Worktrees -/

/-- The model keeps the content of the worktree with its handle. -/
structure WorktreeHandle (File : Type) where
  runId : String
  branchName : String
  /-- The commit that the worktree was created from. -/
  head : Tree File
  /-- The content of `worktree_path`. -/
  tree : Tree File
  filesModified : List String := []
  diffCaptured : Option String := none
  cleanedUp : Bool := false

/-- The handles of `SandboxWorktree`, by run. No handle is ever dropped. -/
abbrev Sandbox (File : Type) := Dict (WorktreeHandle File)

namespace Sandbox

variable {File : Type}

/-- `create`; `added` is what `git worktree add` makes of it. -/
def create (s : Sandbox File) (runId : String) (added : Except PyError (Tree File)) :
    Except PyError (Sandbox File) :=
  match s.get? runId with
  | some _ => .error (.other "SandboxError" s!"run_id '{runId}' already active")
  | none => do
    let head ← added
    return s.set runId { runId := runId, branchName := s!"autodev/{runId}", head := head, tree := head }

def requireHandle (s : Sandbox File) (runId : String) : Except PyError (WorktreeHandle File) :=
  match s.get? runId with
  | none => .error (.other "SandboxError" s!"unknown run_id: {runId}")
  | some handle =>
    if handle.cleanedUp then .error (.other "SandboxError" s!"run_id {runId} already cleaned up")
    else .ok handle

def captureDiff (git : Git File) (s : Sandbox File) (runId : String) : Except PyError (Sandbox File) := do
  let handle ← s.requireHandle runId
  let files ← git.diffHead handle.head handle.tree
  let diff := diffText files
  return s.set runId { handle with diffCaptured := some diff, filesModified := parseModifiedFiles diff }

def cleanup (s : Sandbox File) (runId : String) : Sandbox File :=
  match s.get? runId with
  | none => s
  | some handle => if handle.cleanedUp then s else s.set runId { handle with cleanedUp := true }

end Sandbox

end Occp.Autodev
