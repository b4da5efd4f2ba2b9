import Occp.Lib.Pattern

/-!
# The self-modifier (`evaluation/self_modifier.py`)

Path globs, the boundaries file and the verdict on a path.
-/

namespace Occp.Evaluation

open Lib (Piece matchPieces)

/-! ## Globs -/

/-- A `path_glob`. `re` and `fnmatch` read a bracket and a backslash as syntax of their own;
no glob of the boundaries file has one. -/
structure Glob where
  text : String
  plain : text.toList.all (fun c => c != '[' && c != '\\') = true := by decide +kernel

def notSlash (c : Char) : Bool := c != '/'

/-- What `.` matches without `DOTALL`. -/
def notNewline (c : Char) : Bool := c != '\n'

/-- `glob.find("}", i)`: the text before it. -/
def upToBrace : List Char → Option (List Char)
  | [] => none
  | c :: cs => if c = '}' then some [] else (upToBrace cs).map (c :: ·)

/-- `_glob_to_regex`, with the number of characters that are already read. -/
def globToRegex : (read : Nat) → List Char → List Piece
  | _, [] => []
  | read + 1, _ :: cs => globToRegex read cs
  | 0, '*' :: cs =>
    match cs with
    | '*' :: '/' :: _ => .many notNewline :: globToRegex 2 cs
    | '*' :: _ => .many notNewline :: globToRegex 1 cs
    | _ => .many notSlash :: globToRegex 0 cs
  | 0, '?' :: cs => .one notSlash :: globToRegex 0 cs
  | 0, '{' :: cs =>
    match upToBrace cs with
    | none => .literal '{' :: globToRegex 0 cs
    | some alternatives => .oneOf (alternatives.splitOn ',') :: globToRegex (alternatives.length + 1) cs
  | 0, c :: cs => .literal c :: globToRegex 0 cs

/-- `fnmatch.translate`: here `*` and `?` match a slash too. -/
def fnmatchToRegex : List Char → List Piece
  | [] => []
  | '*' :: cs => .many (fun _ => true) :: fnmatchToRegex cs
  | '?' :: cs => .one (fun _ => true) :: fnmatchToRegex cs
  | c :: cs => .literal c :: fnmatchToRegex cs

def hasDoubleStar : List Char → Bool
  | '*' :: '*' :: _ => true
  | _ :: cs => hasDoubleStar cs
  | [] => false

def globHasMeta (glob : List Char) : Bool := hasDoubleStar glob || glob.contains '{'

/-- `$`: the end, or right before a newline that ends the string. -/
def atEnd (s : List Char) : Bool := s == [] || s == ['\n']

def globMatch (path : String) (glob : Glob) : Bool :=
  let pattern := glob.text.toList
  if globHasMeta pattern then
    matchPieces (globToRegex 0 pattern) atEnd path.toList
  else
    matchPieces (fnmatchToRegex pattern) List.isEmpty path.toList

/-! ## Boundaries -/

structure Rule where
  pathGlob : Glob
  exclude : List Glob := []
  reason : Option String := none
  requiredReviewers : Int := 1
  escalation : Option String := none

/-- The three buckets of `architecture/boundaries.yaml`; a missing one is empty. -/
structure Boundaries where
  autonomousSafe : List Rule := []
  humanReviewRequired : List Rule := []
  immutable : List Rule := []

/-- `_match_rule`: the first rule that matches and does not exclude the path. -/
def matchRule (path : String) (bucket : List Rule) : Option Rule :=
  bucket.find? fun rule =>
    rule.pathGlob.text != "" && globMatch path rule.pathGlob && !rule.exclude.any (globMatch path)

inductive Tier where
  | autonomousSafe
  | humanReviewRequired
  | immutable
  | unknown
  deriving DecidableEq

def Tier.value : Tier → String
  | autonomousSafe => "autonomous_safe"
  | humanReviewRequired => "human_review_required"
  | immutable => "immutable"
  | unknown => "unknown"

structure ModificationVerdict where
  allowed : Bool
  tier : Tier
  reason : String
  path : String
  matchedRule : Option String := none
  requiredReviewers : Int := 0
  escalation : Option String := none

structure SelfModifier where
  data : Boundaries
  verdictsHistory : List ModificationVerdict := []

namespace SelfModifier

/-- The verdict of `check`. -/
def verdict (data : Boundaries) (path : String) : ModificationVerdict :=
  match matchRule path data.immutable with
  | some imm =>
    { allowed := false, tier := .immutable, reason := imm.reason.getD "path is immutable", path := path,
      matchedRule := some imm.pathGlob.text, escalation := imm.escalation }
  | none =>
    match matchRule path data.humanReviewRequired with
    | some hr =>
      { allowed := false, tier := .humanReviewRequired, reason := hr.reason.getD "path requires human review",
        path := path, matchedRule := some hr.pathGlob.text, requiredReviewers := hr.requiredReviewers }
    | none =>
      match matchRule path data.autonomousSafe with
      | some auto =>
        { allowed := true, tier := .autonomousSafe, reason := auto.reason.getD "autonomous-safe zone", path := path,
          matchedRule := some auto.pathGlob.text }
      | none =>
        { allowed := false, tier := .unknown, path := path, requiredReviewers := 1,
          reason := "path not listed in any boundaries tier — fail-secure default " ++
            "requires explicit declaration in architecture/boundaries.yaml" }

/-- `_record`: the last thousand verdicts. -/
def record (m : SelfModifier) (v : ModificationVerdict) : SelfModifier :=
  let history := m.verdictsHistory ++ [v]
  { m with verdictsHistory := history.drop (history.length - 1000) }

def check (m : SelfModifier) (path : String) : ModificationVerdict × SelfModifier :=
  let v := verdict m.data path
  (v, m.record v)

end SelfModifier

/-! ## `architecture/boundaries.yaml` -/

def boundaries : Boundaries where
  autonomousSafe := [
    { pathGlob := { text := "architecture/*.yaml" }, reason := "Self-description updates are the core L6 loop" },
    { pathGlob := { text := ".planning/rfc/*.md" }, reason := "RFC proposals are explicitly meant to be generated" },
    { pathGlob := { text := "observability/**/*.py" },
      reason := "Telemetry instrumentation can be refined continuously" },
    { pathGlob := { text := "evaluation/**/*.py" }, reason := "Evaluation harness iteration is core to L6" },
    { pathGlob := { text := "docs/**/*.md" }, exclude := [{ text := "docs/SECURITY.md" }, { text := "docs/SECRETS.md" }],
      reason := "Documentation updates" },
    { pathGlob := { text := "tests/**/*.py" },
      exclude := [{ text := "tests/test_policy_engine.py" }, { text := "tests/test_agent_allowlist.py" }],
      reason := "Test improvements" },
    { pathGlob := { text := ".planning/**/*.md" }, exclude := [{ text := ".planning/protocol/MASTER_PROTOCOL_v1.md" }],
      reason := "Planning doc updates (except immutable protocol)" }]
  humanReviewRequired := [
    { pathGlob := { text := "orchestrator/**/*.py" }, reason := "Pipeline + brain_flow changes require review" },
    { pathGlob := { text := "adapters/**/*.py" },
      exclude := [{ text := "adapters/mcp_bridge.py" }, { text := "adapters/telegram_voice_bot.py" }],
      reason := "Runtime adapters are critical path" },
    { pathGlob := { text := "api/routes/**/*.py" }, reason := "API surface changes affect all clients" },
    { pathGlob := { text := "dash/src/**/*.{tsx,ts}" }, reason := "UI changes should be designer-reviewed" },
    { pathGlob := { text := "config/**/*.{yaml,csv,json}" }, reason := "Policy config changes alter behavior" },
    { pathGlob := { text := "store/**/*.py" },
      reason := "Persistence layer changes affect data integrity and migrations" },
    { pathGlob := { text := "adapters/claude_planner.py" }, reason := "LLM model routing affects cost + quality" },
    { pathGlob := { text := "adapters/multi_llm_planner.py" }, reason := "Planner fallback chain affects reliability" }]
  immutable := [
    { pathGlob := { text := "security/agent_allowlist.py" },
      reason := "Allowlist bypass would break policy enforcement", escalation := "henry + 2fa" },
    { pathGlob := { text := "policy_engine/guards.py" }, reason := "Weakening guards defeats the safety boundary",
      escalation := "henry + 2fa" },
    { pathGlob := { text := "policy_engine/engine.py" }, reason := "Core gate logic", escalation := "henry + 2fa" },
    { pathGlob := { text := "security/break_glass.py" }, reason := "Emergency override must not be self-editable",
      escalation := "henry + 2fa" },
    { pathGlob := { text := "security/vault.py" }, reason := "Secrets handling", escalation := "henry + 2fa" },
    { pathGlob := { text := "security/signing.py" }, reason := "Code signing + SBOM integrity",
      escalation := "henry + 2fa" },
    { pathGlob := { text := "security/provenance.py" }, reason := "Supply chain provenance",
      escalation := "henry + 2fa" },
    { pathGlob := { text := "api/auth.py" }, reason := "JWT + credential verification", escalation := "henry + 2fa" },
    { pathGlob := { text := "api/rbac.py" }, reason := "Role-based access control", escalation := "henry + 2fa" },
    { pathGlob := { text := "migrations/versions/*.py" }, reason := "Schema migrations are irreversible — DBA only",
      escalation := "henry + dba review" },
    { pathGlob := { text := ".env*" }, reason := "Environment secrets", escalation := "henry + secret rotation" },
    { pathGlob := { text := "config/settings.py" }, reason := "Core runtime configuration", escalation := "henry" },
    { pathGlob := { text := ".planning/protocol/MASTER_PROTOCOL_v1.md" },
      reason := "Source of truth for runtime rules", escalation := "henry" },
    { pathGlob := { text := "architecture/governance.yaml" }, reason := "These boundary rules themselves",
      escalation := "henry + 2fa" }]

example : (SelfModifier.verdict boundaries "evaluation/harness/run.py").tier = .autonomousSafe := by decide +kernel
example : (SelfModifier.verdict boundaries "dash/src/a/b.tsx").tier = .humanReviewRequired := by decide +kernel

end Occp.Evaluation
