import Occp.Evaluation.KillSwitch
import Occp.Orchestrator.Pipeline
import Occp.Text

/-!
# The kill switch in Redis (`evaluation/kill_switch_redis.py`)

A stored payload is what `json.loads` makes of it, and `raises i` says whether call number
`i` of an operation to Redis raises. Times and logs are left out.
-/

namespace Occp

namespace Evaluation

/-- `KillSwitchTrigger(value)`. -/
def KillSwitchTrigger.ofValue (value : String) : Except PyError KillSwitchTrigger :=
  let all := [manual, anomaly, canaryFailure, errorSpike, security, drill]
  match all.find? fun t => t.value = value with
  | some t => .ok t
  | none => .error (.valueError s!"{reprString value} is not a valid KillSwitchTrigger")

/-- The two keys of the switch; the history is newest first. -/
structure RedisStore where
  halt : Option Payload := none
  history : List Payload := []

structure RedisKillSwitch where
  available : Bool
  /-- The switch of the process itself. -/
  memory : KillSwitch := {}

namespace RedisKillSwitch

def historyCap : Nat := 100

def backend (k : RedisKillSwitch) : String := if k.available then "redis" else "memory"

/-- `_safe_call`: the call has answered when Redis is still in use after it. -/
def safeCall (k : RedisKillSwitch) (raises : Bool) : RedisKillSwitch :=
  { k with available := k.available && !raises }

/-- The GET of the halt key. `None` stands for no key and for a call that raised. -/
def get (k : RedisKillSwitch) (s : RedisStore) (raises : Bool) : Option Payload × RedisKillSwitch :=
  let k := k.safeCall raises
  (if k.available then s.halt else none, k)

/-- The LPUSH and the LTRIM of the history. -/
def pushHistory (k : RedisKillSwitch) (s : RedisStore) (pushRaises trimRaises : Bool) (payload : Payload) :
    RedisKillSwitch × RedisStore :=
  let k := k.safeCall pushRaises
  let s := if k.available then { s with history := payload :: s.history } else s
  let k := k.safeCall trimRaises
  (k, if k.available then { s with history := s.history.take historyCap } else s)

/-- The record of an activation, as it is stored and returned. -/
def haltRecord (trigger : KillSwitchTrigger) (actor reason : String) (evidence : Dict Value) : Value :=
  .dict [("state", .str KillSwitchState.active.value), ("trigger", .str trigger.value), ("actor", .str actor),
    ("reason", .str reason), ("evidence", .dict evidence), ("deactivated_by", .none), ("deactivation_reason", .none)]

def activate (k : RedisKillSwitch) (s : RedisStore) (raises : Nat → Bool) (trigger actor reason : String)
    (evidence : Dict Value) : Except PyError Value × RedisKillSwitch × RedisStore :=
  match KillSwitchTrigger.ofValue trigger with
  | .error e => (.error e, k, s)
  | .ok trigger =>
    let record := haltRecord trigger actor reason evidence
    let k := k.safeCall (raises 0)
    let s := if k.available then { s with halt := some (some record) } else s
    let (k, s) := k.pushHistory s (raises 1) (raises 2) (some record)
    (.ok record, { k with memory := k.memory.activate trigger actor reason evidence }, s)

/-- `record["state"] = ...` on what is no dictionary. -/
def assignError : Value → PyError
  | .list _ => .typeError "list indices must be integers or slices, not str"
  | v => .typeError s!"'{v.typeName}' object does not support item assignment"

def deactivate (k : RedisKillSwitch) (s : RedisStore) (raises : Nat → Bool) (actor reason : String) :
    Except PyError Value × RedisKillSwitch × RedisStore :=
  match k.get s (raises 0) with
  | (none, k) =>
    let (prev, memory) := k.memory.deactivate actor reason
    (.ok ((prev.map (·.toDict)).getD .none), { k with memory }, s)
  | (some payload, k) =>
    match payload.getD (.dict []) with
    | .dict entries =>
      let record : Dict Value := Dict.setAll entries [("state", .str KillSwitchState.inactive.value),
        ("deactivated_by", .str actor), ("deactivation_reason", .str reason)]
      let k := k.safeCall (raises 1)
      let s := if k.available then { s with halt := none } else s
      let (k, s) := k.pushHistory s (raises 2) (raises 3) (some (.dict record))
      (.ok (.dict record), { k with memory := (k.memory.deactivate actor reason).2 }, s)
    | v => (.error (assignError v), k, s)

/-- `rec.get("state") == "active"`. -/
def recordActive (record : Dict Value) : Bool :=
  match record.get? "state" with
  | some (.str state) => state = KillSwitchState.active.value
  | _ => false

/-- What has no `get`. -/
def getError (v : Value) : PyError := .other "AttributeError" s!"'{v.typeName}' object has no attribute 'get'"

def isActive (k : RedisKillSwitch) (s : RedisStore) (raises : Bool) : Except PyError Bool × RedisKillSwitch :=
  if k.available then
    match k.get s raises with
    | (none, k) => (.ok (if k.available then false else k.memory.isActive), k)
    | (some none, k) => (.ok false, k)
    | (some (some (.dict record)), k) => (.ok (recordActive record), k)
    | (some (some v), k) => (.error (getError v), k)
  else (.ok k.memory.isActive, k)

/-- The view of the current record that `status` gives. -/
def statusOf (backend : String) (current : Value) (history : List Value) : Except PyError Value :=
  let view (state : Value) (active : Bool) : Value :=
    .dict [("backend", .str backend), ("state", state), ("is_active", .bool active), ("current", current),
      ("recent_history", .list history)]
  if current.truthy then
    match current with
    | .dict record => .ok (view ((Dict.get? record "state").getD .none) (recordActive record))
    | v => .error (getError v)
  else .ok (view (.str KillSwitchState.inactive.value) false)

def status (k : RedisKillSwitch) (s : RedisStore) (raises : Nat → Bool) : Except PyError Value × RedisKillSwitch :=
  let (raw, k) := k.get s (raises 0)
  let current := raw.join.getD .none
  let k := k.safeCall (raises 1)
  let history := if k.available then (s.history.take 10).filterMap id else []
  match current, k.available with
  | .none, false =>
    (.ok (.dict [("backend", .str k.backend), ("state", .str k.memory.state.value),
      ("is_active", .bool k.memory.isActive), ("current", (k.memory.current.map (·.toDict)).getD .none), ("recent_history", .list [])]), k)
  | current, _ => (statusOf k.backend current history, k)

/-! ## The probe of `Pipeline.run` -/

/-- `(status.get("current") or {}).get("reason") or "redis_kill_switch_active"`. -/
def reasonOf (status : Value) : Except PyError Value :=
  let orDefault (reason : Value) := if reason.truthy then reason else .str "redis_kill_switch_active"
  match status with
  | .dict view =>
    let current := (Dict.get? view "current").getD .none
    if current.truthy then
      match current with
      | .dict record => .ok (orDefault ((Dict.get? record "reason").getD .none))
      | v => .error (getError v)
    else .ok (orDefault .none)
  | v => .error (getError v)

def probe (k : RedisKillSwitch) (s : RedisStore) (raises : Nat → Bool) :
    Except PyError (Option Value) × RedisKillSwitch :=
  match k.isActive s (raises 0) with
  | (.error e, k) => (.error e, k)
  | (.ok false, k) => (.ok none, k)
  | (.ok true, k) =>
    let (status, k) := k.status s fun i => raises (i + 1)
    ((status.bind reasonOf).map some, k)

/-- What `require_kill_switch_inactive` raises, as text. -/
def guard (k : RedisKillSwitch) : Option String :=
  match k.memory.requireInactive with
  | .ok () => none
  | .error e => some e.str

/-- The process around a run with the Redis backend. -/
def process (k : RedisKillSwitch) (s : RedisStore) (raises : Nat → Bool) (text : Value → String)
    (enforceToolGuard : Bool) : Orchestrator.Process where
  killSwitch := k.guard
  redisKillSwitch := some ((k.probe s raises).1.map (·.map (Text.inserted text)))
  enforceToolGuard

/-- The switch after a run, which probes it only when the guard lets it. -/
def probed (k : RedisKillSwitch) (s : RedisStore) (raises : Nat → Bool) : RedisKillSwitch :=
  if k.guard.isSome then k else (k.probe s raises).2

end RedisKillSwitch

end Evaluation

end Occp
