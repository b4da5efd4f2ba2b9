import Mathlib.Data.Rat.Defs
import Mathlib.Algebra.Order.Ring.Rat
import Occp.Lib.Runs
import Occp.Value

/-!
# Revocations (`security/revocation.py`)

A list of revoked artifacts, for good or for a time, and a kill switch. What is read from the clock is a parameter.
-/

namespace Occp.Security

/-! ## Entries and their JSON -/

structure RevocationEntry where
  artifactId : String
  reason : String
  revokedAt : Rat
  revokedBy : String := ""
  severity : String := "high"
  /-- `0` is permanent. -/
  expiresAt : Rat := 0
  deriving DecidableEq

/-- The JSON object of an entry; a key may be missing where the code has a default. -/
structure EntryData where
  artifactId : String
  reason : String
  revokedAt : Rat
  revokedBy : Option String := none
  severity : Option String := none
  expiresAt : Option Rat := none

namespace RevocationEntry

def toDict (e : RevocationEntry) : EntryData where
  artifactId := e.artifactId
  reason := e.reason
  revokedAt := e.revokedAt
  revokedBy := some e.revokedBy
  severity := some e.severity
  expiresAt := some e.expiresAt

def fromDict (data : EntryData) : RevocationEntry where
  artifactId := data.artifactId
  reason := data.reason
  revokedAt := data.revokedAt
  revokedBy := data.revokedBy.getD ""
  severity := data.severity.getD "high"
  expiresAt := data.expiresAt.getD 0

def isExpired (e : RevocationEntry) (now : Rat) : Bool := if e.expiresAt = 0 then false else e.expiresAt < now

@[simp] theorem fromDict_toDict (e : RevocationEntry) : fromDict e.toDict = e := rfl

@[simp] theorem toDict_artifactId (e : RevocationEntry) : e.toDict.artifactId = e.artifactId := rfl

@[simp] theorem fromDict_artifactId (data : EntryData) : (fromDict data).artifactId = data.artifactId := rfl

theorem isExpired_permanent {e : RevocationEntry} (h : e.expiresAt = 0) (now : Rat) : e.isExpired now = false := by
  simp [isExpired, h]

end RevocationEntry

structure KillSwitchState where
  active : Bool := false
  reason : String := ""
  activatedAt : Rat := 0
  activatedBy : String := ""
  coreAllowlist : List String := []

structure KillSwitchData where
  active : Option Bool := none
  reason : Option String := none
  activatedAt : Option Rat := none
  activatedBy : Option String := none
  coreAllowlist : Option (List String) := none

namespace KillSwitchState

def toDict (k : KillSwitchState) : KillSwitchData where
  active := some k.active
  reason := some k.reason
  activatedAt := some k.activatedAt
  activatedBy := some k.activatedBy
  coreAllowlist := some k.coreAllowlist

def fromDict (data : KillSwitchData) : KillSwitchState where
  active := data.active.getD false
  reason := data.reason.getD ""
  activatedAt := data.activatedAt.getD 0
  activatedBy := data.activatedBy.getD ""
  coreAllowlist := data.coreAllowlist.getD []

@[simp] theorem fromDict_toDict (k : KillSwitchState) : fromDict k.toDict = k := rfl

end KillSwitchState

/-! ## The checker -/

def defaultPollInterval : Rat := 300

structure RevocationChecker where
  revocations : Dict RevocationEntry := []
  killSwitch : KillSwitchState
  pollInterval : Rat := defaultPollInterval
  lastSync : Rat := 0

structure CheckerData where
  revocations : Option (Dict EntryData) := none
  killSwitch : Option KillSwitchData := none
  lastSync : Option Rat := none
  pollInterval : Option Rat := none

namespace RevocationChecker

def defaultCore : List String := ["occp-core", "occp-policy-engine", "occp-orchestrator", "occp-api"]

/-- An empty list of core artifacts counts as none. -/
def new (coreAllowlist : List String) (pollInterval : Rat) : RevocationChecker where
  killSwitch := { coreAllowlist := if coreAllowlist = [] then defaultCore else coreAllowlist }
  pollInterval := pollInterval

variable (c : RevocationChecker)

def revoke (now : Rat) (artifactId reason revokedBy severity : String) (ttlSeconds : Rat) : RevocationChecker :=
  let entry : RevocationEntry :=
    { artifactId, reason := if reason = "" then "Revoked" else reason, revokedAt := now, revokedBy, severity
      expiresAt := if 0 < ttlSeconds then now + ttlSeconds else 0 }
  { c with revocations := c.revocations.set artifactId entry }

def unrevoke (artifactId : String) : RevocationChecker := { c with revocations := c.revocations.pop artifactId }

def isRevoked (now : Rat) (artifactId : String) : Bool × RevocationChecker :=
  if c.killSwitch.active ∧ artifactId ∉ c.killSwitch.coreAllowlist then (true, c)
  else
    match c.revocations.get? artifactId with
    | none => (false, c)
    | some entry =>
      if entry.isExpired now then (false, { c with revocations := c.revocations.pop artifactId }) else (true, c)

def getRevocation (now : Rat) (artifactId : String) : Option RevocationEntry × RevocationChecker :=
  match c.revocations.get? artifactId with
  | none => (none, c)
  | some entry =>
    if entry.isExpired now then (none, { c with revocations := c.revocations.pop artifactId }) else (some entry, c)

def cleanExpired (now : Rat) : RevocationChecker :=
  { c with revocations := c.revocations.filter fun e => !e.2.isExpired now }

def revokedArtifacts (now : Rat) : List String × RevocationChecker :=
  let c := c.cleanExpired now
  (c.revocations.keys, c)

def revocationCount (now : Rat) : Nat × RevocationChecker :=
  let c := c.cleanExpired now
  (c.revocations.length, c)

def activateKillSwitch (now : Rat) (reason activatedBy : String) : RevocationChecker :=
  { c with killSwitch := { c.killSwitch with
      active := true, reason := if reason = "" then "Kill-switch activated" else reason, activatedAt := now, activatedBy } }

def deactivateKillSwitch : RevocationChecker := { c with killSwitch := { c.killSwitch with active := false } }

def markSynced (now : Rat) : RevocationChecker := { c with lastSync := now }

def toDict (now : Rat) : CheckerData × RevocationChecker :=
  let c := c.cleanExpired now
  ({ revocations := some (c.revocations.map fun e => (e.1, e.2.toDict)), killSwitch := some c.killSwitch.toDict
     lastSync := some c.lastSync, pollInterval := some c.pollInterval }, c)

/-- The object that the text stands for: keys are sorted. -/
def toJson (now : Rat) : CheckerData × RevocationChecker :=
  let (data, c) := c.toDict now
  ({ data with revocations := data.revocations.map (·.mergeSort fun a b => a.1 ≤ b.1) }, c)

def fromDict (now : Rat) (data : CheckerData) : RevocationChecker :=
  let entries := ((data.revocations.getD []).map fun e => RevocationEntry.fromDict e.2).filter fun e => !e.isExpired now
  { revocations := Dict.setAll [] (entries.map fun e => (e.artifactId, e))
    killSwitch := .fromDict (data.killSwitch.getD {})
    pollInterval := data.pollInterval.getD defaultPollInterval
    lastSync := data.lastSync.getD 0 }

end RevocationChecker

end Occp.Security
