import Occp.Json
import Occp.Re

/-!
# The quality gate (`orchestrator/quality_gate.py`)

The automated checks here are those of the agents whose outputs are searched for secrets or
destructive commands. `uuid i` is the id that is drawn for the `i`-th check.
-/

namespace Occp.Quality

open Lib (Regex)
open Re (Pattern text among spaces anySpaces words ignoreCase HasMatch)

/-! ## Checks -/

inductive CheckType where
  | selfReview
  | crossReview
  | brainReview
  | automated
  deriving DecidableEq

inductive CheckStatus where
  | pending
  | passed
  | failed
  | needsRevision
  deriving DecidableEq

structure QualityCheck where
  checkId : String
  agentId : String
  taskId : String
  checkType : CheckType
  status : CheckStatus
  score : Rat
  feedback : String
  reviewer : String

def secretPatterns : List Pattern :=
  let quotes := among (String.ofList [Char.ofNat 39, '"'])
  [ ⟨"(?:api[_-]?key|secret|token|password)\\s*[:=]\\s*['\\\"][^'\\\"]\x7b8,\x7d['\\\"]",
      .sequence [.anyOf (.sequence [text "api", .opt (.chars (among "_-")), text "key"])
          [text "secret", text "token", text "password"],
        anySpaces, .chars (among ":="), anySpaces, .chars quotes, .rep (fun c => !quotes c) 8 none, .chars quotes]⟩,
    ⟨"sk-[a-zA-Z0-9]\x7b20,\x7d", .seq (text "sk-") (.rep Char.isAlphanum 20 none)⟩,
    ⟨"ghp_[a-zA-Z0-9]\x7b36\x7d", .seq (text "ghp_") (.rep Char.isAlphanum 36 (some 36))⟩,
    ⟨"AKIA[A-Z0-9]\x7b16\x7d", .seq (text "AKIA") (.rep (fun c => c.isUpper || c.isDigit) 16 (some 16))⟩]

def destructivePatterns : List Pattern :=
  [ ⟨"\\brm\\s+-rf\\s+/", .sequence [.boundary, text "rm", spaces, text "-rf", spaces, text "/"]⟩,
    ⟨"\\bdd\\s+if=", .sequence [.boundary, text "dd", spaces, text "if="]⟩,
    ⟨"\\bmkfs\\b", .sequence [.boundary, text "mkfs", .boundary]⟩,
    ⟨"\\bgit\\s+push\\s+--force\\s+.*main",
      .sequence [.boundary, text "git", spaces, text "push", spaces, text "--force", spaces, .rep Re.dot 0 none,
        text "main"]⟩,
    ⟨"\\bgit\\s+reset\\s+--hard\\b",
      .sequence [.boundary, text "git", spaces, text "reset", spaces, text "--hard", .boundary]⟩,
    ⟨"\\bdrop\\s+database\\b", .sequence [.boundary, text "drop", spaces, text "database", .boundary]⟩,
    ⟨"\\bdrop\\s+table\\b", .sequence [.boundary, text "drop", spaces, text "table", .boundary]⟩]

namespace QualityGate

def contentKeys : List String := ["content", "text", "code", "body", "output", "result"]

/-- The first of the usual keys that has a text. -/
def preferred? (output : Dict Value) : Option String :=
  contentKeys.findSome? fun key =>
    match output.get? key with
    | some (.str s) => if s = "" then none else some s
    | _ => none

def extractContent (floatText : Rat → String) (output : Dict Value) : List Char :=
  match preferred? output with
  | some s => s.toList
  | none => Json.dumps floatText (.dict output)

/-! ## The automated checks -/

def countOf (content : List Char) (brackets : String) : Nat := content.countP fun c => brackets.toList.contains c

def checkSyntaxValid (content : List Char) : Bool × String :=
  let openCount := countOf content "\x7b[("
  let closeCount := countOf content "\x7d])"
  if 2 < ((openCount : Int) - closeCount).natAbs then
    (false, s!"Unbalanced brackets: open={openCount} close={closeCount}")
  else (true, "Syntax check passed")

def checkTestsPass (output : Dict Value) : Bool × String :=
  match output.get? "tests_passed" with
  | some (.bool false) => (false, "Tests did not pass")
  | _ => (true, "Tests pass check OK")

def firstFound (u : Unicode) (patterns : List Pattern) (content : List Char) : Option Pattern :=
  patterns.find? fun p => (Re.search u (ignoreCase p.regex) content).isSome

def checkNoSecrets (u : Unicode) (content : List Char) : Bool × String :=
  match firstFound u secretPatterns content with
  | some p => (false, s!"Potential secret detected: pattern={p.source}")
  | none => (true, "No secrets detected")

/-- `True` counts as an int, and is written so. -/
def checkLintClean (output : Dict Value) : Bool × String :=
  match output.get? "lint_errors" with
  | some (.bool true) => (false, "Lint errors found: True")
  | some (.int n) => if 0 < n then (false, s!"Lint errors found: {n}") else (true, "Lint check passed")
  | some (.list (item :: items)) => (false, s!"Lint errors found: {(item :: items).length}")
  | _ => (true, "Lint check passed")

def checkWpStandards (content : List Char) : Bool × String :=
  if isSubstring "$wpdb->query(".toList content && !isSubstring "$wpdb->prepare".toList content then
    (false, "Direct $wpdb->query without $wpdb->prepare")
  else (true, "WordPress standards check passed")

def checkNoDestructive (u : Unicode) (content : List Char) : Bool × String :=
  match firstFound u destructivePatterns content with
  | some p => (false, s!"Destructive command detected: {p.source}")
  | none => (true, "No destructive commands")

def checkBackupExists (content : List Char) (output : Dict Value) : Bool × String :=
  let mentioned := ["backup", "snapshot", "rollback", "restore"].any fun kw => isSubstring kw.toList (Text.lower content)
  if mentioned || (output.get? "backup_confirmed").any Value.truthy then (true, "Backup strategy present")
  else (false, "No backup/rollback strategy mentioned")

/-- `AUTOMATED_CHECKS`, of the agents that this module is about. -/
def automatedChecks (agentId : String) : List String :=
  match agentId with
  | "eng-core" => ["syntax_valid", "tests_pass", "no_secrets", "lint_clean"]
  | "wp-web" => ["syntax_valid", "no_secrets", "wp_standards"]
  | "infra-ops" => ["no_secrets", "no_destructive_commands", "backup_exists"]
  | _ => []

/-- `_get_checker`, and the call of what it returns. -/
def checker (u : Unicode) (checkName : String) (content : List Char) (output : Dict Value) : Bool × String :=
  match checkName with
  | "syntax_valid" => checkSyntaxValid content
  | "tests_pass" => checkTestsPass output
  | "no_secrets" => checkNoSecrets u content
  | "lint_clean" => checkLintClean output
  | "wp_standards" => checkWpStandards content
  | "no_destructive_commands" => checkNoDestructive u content
  | "backup_exists" => checkBackupExists content output
  | _ => (true, "No-op check passed")

def runAutomatedChecks (u : Unicode) (floatText : Rat → String) (uuid : Nat → String) (agentId taskId : String)
    (output : Dict Value) : List QualityCheck :=
  let content := extractContent floatText output
  (automatedChecks agentId).zipIdx.map fun (checkName, i) =>
    let (passed, feedback) := checker u checkName content output
    { checkId := uuid i, agentId, taskId, checkType := .automated
      status := if passed then .passed else .failed
      score := if passed then 1 else 0
      feedback, reviewer := "automated" }

/-! ## Reviews -/

/-- `CROSS_REVIEW_MAP`, by the primary reviewer. -/
def primaryReviewer (agentId : String) : Option String :=
  match agentId with
  | "eng-core" => some "wp-web"
  | "wp-web" => some "eng-core"
  | "content-forge" => some "social-growth"
  | "social-growth" => some "content-forge"
  | "design-lab" => some "wp-web"
  | "biz-strategy" => some "intel-research"
  | "intel-research" => some "biz-strategy"
  | "infra-ops" => some "eng-core"
  | _ => none

/-- `request_cross_review`. The handler's answer is missing when there is none, and when the handler raises or
returns something else. -/
def requestCrossReview (uuid : Nat → String) (handler : String → Option QualityCheck) (agentId taskId : String) :
    Option QualityCheck :=
  (primaryReviewer agentId).map fun reviewer =>
    (handler reviewer).getD
      { checkId := uuid (automatedChecks agentId).length, agentId, taskId, checkType := .crossReview
        status := .pending, score := 0, feedback := s!"Cross-review requested from {reviewer}", reviewer }

end QualityGate

structure QualityGate where
  checkStore : Dict (List QualityCheck) := []
  totalChecks : Nat := 0
  totalPassed : Nat := 0
  totalFailed : Nat := 0

namespace QualityGate

def store (g : QualityGate) (taskId : String) (checks : List QualityCheck) : QualityGate :=
  { g with checkStore := g.checkStore.set taskId ((g.checkStore.get? taskId).getD [] ++ checks) }

def runQualityGate (u : Unicode) (floatText : Rat → String) (uuid : Nat → String)
    (handler : String → Option QualityCheck) (g : QualityGate) (agentId taskId : String) (output : Dict Value) :
    List QualityCheck × QualityGate :=
  let allChecks := runAutomatedChecks u floatText uuid agentId taskId output ++
    (requestCrossReview uuid handler agentId taskId).toList
  (allChecks, { g.store taskId allChecks with totalChecks := g.totalChecks + allChecks.length })

def passThreshold : Rat := 7 / 10

def brainOverrideThreshold : Rat := 1 / 2

def isHardFailure (c : QualityCheck) : Bool := c.checkType = .automated && c.status = .failed

/-- What no average makes up for. -/
def isCritical (c : QualityCheck) : Bool :=
  ["secret", "destructive"].any (fun word => isSubstring word.toList (Text.lower c.feedback.toList)) ||
    ["no_secrets", "no_destructive_commands"].contains c.checkId

def averageScore (completed : List QualityCheck) : Rat := (completed.map (·.score)).sum / completed.length

def passes (completed : List QualityCheck) : Bool :=
  let hardFailures := completed.filter isHardFailure
  let avgScore := averageScore completed
  let brainPassed := hardFailures.length = 0 ∧ passThreshold ≤ avgScore
  let brainOverride :=
    hardFailures.length ≤ 1 ∧ (hardFailures.filter isCritical).length = 0 ∧ brainOverrideThreshold ≤ avgScore
  brainPassed ∨ brainOverride

def brainFinalReview (g : QualityGate) (checkId taskId : String) (allChecks : List QualityCheck) : Bool × QualityGate :=
  let completed := allChecks.filter (·.status ≠ .pending)
  if allChecks.isEmpty ∨ completed.isEmpty then (true, g)
  else
    let passed := passes completed
    let avgScore := averageScore completed
    let brainCheck : QualityCheck :=
      { checkId, agentId := "brain", taskId, checkType := .brainReview
        status := if passed then .passed else .failed
        score := avgScore
        feedback := s!"Brain review: avg_score={Text.fixed 2 avgScore}, hard_failures={(completed.filter isHardFailure).length}, total_checks={completed.length}"
        reviewer := "brain" }
    let g := g.store taskId [brainCheck]
    (passed, if passed then { g with totalPassed := g.totalPassed + 1 } else { g with totalFailed := g.totalFailed + 1 })

end QualityGate

end Occp.Quality
