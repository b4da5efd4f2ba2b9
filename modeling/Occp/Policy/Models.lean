import Occp.Errors

/-! # Policies, rules and audit entries (`policy_engine/models.py`) -/

namespace Occp.Policy

inductive RuleAction where
  | allow
  | deny
  | requireApproval
  deriving DecidableEq

structure PolicyRule where
  id : String
  action : RuleAction
  conditions : Dict Value

structure Policy where
  name : String
  version : String
  rules : List PolicyRule

structure GuardResult where
  passed : Bool
  guardName : String
  detail : String := ""

/-- What the model takes from Python's standard library as it finds it: `str`, regular
expressions, ISO times, IP networks, JSON text and SHA-256. No result assumes anything of them. -/
structure PyLib where
  str : Value → String
  /-- `bool(re.match(pattern, text))`, or the `re.error` of a bad pattern. -/
  reMatch : String → String → Except PyError Bool
  /-- `time.fromisoformat`, in microseconds since midnight; `none` is its `ValueError`. -/
  timeFromIso : String → Option Nat
  timeIso : Nat → String
  /-- `ip_address(a) in IPv4Network(n)` or `IPv6Network(n)`; `none` is a `ValueError`. -/
  inNetwork : String → String → Option Bool
  /-- `json.dumps(v, sort_keys=True)`. -/
  dumps : Value → String
  sha256 : String → String

structure AuditEntry where
  id : String
  timestamp : String
  actor : String
  action : String
  taskId : String
  detail : Dict Value
  prevHash : String := ""
  hash : String := ""

namespace AuditEntry

/-- The object that `compute_hash` serialises. -/
def payload (e : AuditEntry) (prevHash : String) : Value :=
  .dict [("id", .str e.id), ("timestamp", .str e.timestamp), ("actor", .str e.actor),
    ("action", .str e.action), ("task_id", .str e.taskId), ("detail", .dict e.detail),
    ("prev_hash", .str prevHash)]

def computeHash (py : PyLib) (e : AuditEntry) (prevHash : String) : AuditEntry :=
  { e with prevHash := prevHash, hash := py.sha256 (py.dumps (e.payload prevHash)) }

end AuditEntry

end Occp.Policy
