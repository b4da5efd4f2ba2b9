import Mathlib.Data.List.Induction
import Occp.Adapters.McpClient
import Occp.Orchestrator.NetworkScope

/-!
# Skills (`orchestrator/skill_executor.py`, `security/skill_registry.py`)

Executions side by side, over a registry and an MCP client that are changed meanwhile. A step takes one
execution to its next await, which is the gate or the client. The id of an execution is its place; how long
it took is left out. `lower` is `str.lower`.
-/

namespace Occp.Skills

open Policy Adapters
open Lib (run run_invariant countP_set_add getElem?_set_cases getElem?_concat_cases getElem?_concat_of_some)

/-! ## The registry -/

/-- Of its metadata the id of an MCP server is read. -/
structure SkillRecord where
  skillId : String
  name : String
  version : String
  scope : String := "private"
  source : String := "local"
  mcpServerId : String := ""

/-- Of `HubConfig`, whether the hub is enabled is read. -/
structure SkillRegistry where
  skills : Dict SkillRecord := []
  hubEnabled : Bool := false

namespace SkillRegistry

def install (r : SkillRegistry) (skillId name version source mcpServerId : String) : Except PyError SkillRegistry :=
  if source = "hub" ∧ !r.hubEnabled then
    .error (.other "HubNotEnabledError"
      s!"Cannot install '{skillId}' from OCCPHub — hub not enabled. Call hub_enable() first.")
  else
    match r.skills.get? skillId with
    | some old =>
      .error (.other "RegistryError" s!"Skill '{skillId}' already installed at version {old.version}. Use upgrade() instead.")
    | none => .ok { r with skills := r.skills.set skillId { skillId, name, version, source, mcpServerId } }

def hubEnable (r : SkillRegistry) : SkillRegistry := { r with hubEnabled := true }

def hubDisable (r : SkillRegistry) : SkillRegistry := { r with hubEnabled := false }

def uninstall (r : SkillRegistry) (skillId : String) : SkillRegistry := { r with skills := r.skills.pop skillId }

/-- Scope and source are those of the old record. -/
def upgrade (r : SkillRegistry) (skillId newVersion : String) (name mcpServerId : Option String) :
    Except PyError SkillRegistry :=
  match r.skills.get? skillId with
  | none => .error (.other "SkillNotFoundError" s!"Cannot upgrade: '{skillId}' not installed")
  | some old =>
    .ok { r with skills := r.skills.set skillId
                  { old with skillId, name := name.getD old.name, version := newVersion
                             mcpServerId := mcpServerId.getD old.mcpServerId } }

end SkillRegistry

inductive RegistryEvent where
  | install (skillId name version source mcpServerId : String)
  | uninstall (skillId : String)
  | upgrade (skillId newVersion : String) (name mcpServerId : Option String)
  | hubEnable
  | hubDisable

/-- What raises leaves the registry as it is. -/
def SkillRegistry.step (r : SkillRegistry) : RegistryEvent → SkillRegistry
  | .install skillId name version source mcpServerId =>
    match r.install skillId name version source mcpServerId with
    | .ok r' => r'
    | .error _ => r
  | .uninstall skillId => r.uninstall skillId
  | .upgrade skillId newVersion name mcpServerId =>
    match r.upgrade skillId newVersion name mcpServerId with
    | .ok r' => r'
    | .error _ => r
  | .hubEnable => r.hubEnable
  | .hubDisable => r.hubDisable

/-- What holds of a record that is filed under the id. -/
structure Filed (events : List RegistryEvent) (skillId : String) (record : SkillRecord) : Prop where
  ownId : record.skillId = skillId
  isPrivate : record.scope = "private"
  hub : record.source = "hub" → ∃ before after name version server,
    events = before ++ .install skillId name version "hub" server :: after ∧ (run SkillRegistry.step {} before).hubEnabled = true

theorem Filed.longer {events : List RegistryEvent} {skillId : String} {record : SkillRecord} (h : Filed events skillId record)
    (e : RegistryEvent) : Filed (events ++ [e]) skillId record := by
  refine ⟨h.ownId, h.isPrivate, fun hsource => ?_⟩
  obtain ⟨before, after, name, version, server, hsplit, henabled⟩ := h.hub hsource
  exact ⟨before, after ++ [e], name, version, server, by rw [hsplit, List.append_assoc, List.cons_append], henabled⟩

def AllFiled (events : List RegistryEvent) (r : SkillRegistry) : Prop :=
  ∀ skillId record, r.skills.get? skillId = some record → Filed events skillId record

variable {events : List RegistryEvent} {r : SkillRegistry}

theorem AllFiled.longer (h : AllFiled events r) (e : RegistryEvent) : AllFiled (events ++ [e]) r :=
  fun skillId record hget => (h skillId record hget).longer e

theorem AllFiled.set (h : AllFiled events r) {id : String} {new : SkillRecord} (hnew : Filed events id new) :
    AllFiled events { r with skills := r.skills.set id new } := by
  intro skillId record hget
  rw [Dict.get?_set] at hget
  split at hget
  · next hid =>
    subst hid
    obtain rfl := Option.some.inj hget
    exact hnew
  · exact h skillId record hget

theorem AllFiled.uninstall (h : AllFiled events r) (id : String) : AllFiled events (r.uninstall id) := by
  intro skillId record hget
  rw [SkillRegistry.uninstall, Dict.get?_pop] at hget
  split at hget
  · cases hget
  · exact h skillId record hget

/-- What a registry does next leaves its records as they have to be. -/
theorem AllFiled.step (h : AllFiled events (run SkillRegistry.step {} events)) (e : RegistryEvent) :
    AllFiled (events ++ [e]) ((run SkillRegistry.step {} events).step e) := by
  cases e with
  | install id name version source server =>
    simp only [SkillRegistry.step, SkillRegistry.install]
    by_cases hhub : source = "hub" ∧ (!(run SkillRegistry.step {} events).hubEnabled) = true
    · rw [if_pos hhub]
      exact h.longer _
    · rw [if_neg hhub]
      cases hold : (run SkillRegistry.step {} events).skills.get? id with
      | some old => exact h.longer _
      | none =>
        refine (h.longer _).set ⟨rfl, rfl, fun hsource => ?_⟩
        obtain rfl : source = "hub" := hsource
        exact ⟨events, [], name, version, server, rfl, by simpa using hhub⟩
  | uninstall id => exact (h.longer _).uninstall id
  | upgrade id version name server =>
    simp only [SkillRegistry.step, SkillRegistry.upgrade]
    cases hold : (run SkillRegistry.step {} events).skills.get? id with
    | none => exact h.longer _
    | some old =>
      have hfiled := (h id old hold).longer (.upgrade id version name server)
      exact (h.longer _).set ⟨rfl, hfiled.isPrivate, hfiled.hub⟩
  | hubEnable => exact h.longer _
  | hubDisable => exact h.longer _

/-- **Skills are private, and come from the hub only while it is enabled.** In every run from an empty registry each record
is under its own id and private, and one whose source is the hub was installed from it at a time when it was enabled. -/
theorem private_first (events : List RegistryEvent) : AllFiled events (run SkillRegistry.step {} events) := by
  induction events using List.reverseRecOn with
  | nil => exact fun _ _ h => nomatch h
  | append_singleton events e ih =>
    rw [Lib.run_append, Lib.run_cons, Lib.run_nil]
    exact ih.step e

/-! ## Executions -/

inductive ExecutionStage where
  /-- The gate has been asked. -/
  | gating
  /-- The MCP client has been asked, for this invocation. -/
  | invoking (invocation : Nat)
  | returned (output : Value)
  | raised (exc : PyError)
  | cancelled

/-- A call of `execute_skill`, with what its context keeps of the manifest and of the record. -/
structure Execution where
  skillId : String
  arguments : Dict Value
  agentId : String
  trustLevel : TrustLevel
  task : Option Task
  manifest : Option CapabilityManifest := none
  mcpServerId : String := ""
  decision : Option GateDecision := none
  auditTrail : List String := []
  stage : ExecutionStage := .gating

def ExecutionStage.isOpen : ExecutionStage → Bool
  | gating => true
  | invoking _ => true
  | _ => false

def ExecutionStage.succeeded : ExecutionStage → Bool
  | returned _ => true
  | _ => false

def ExecutionStage.failed : ExecutionStage → Bool
  | raised _ => true
  | _ => false

def ExecutionStage.wasCancelled : ExecutionStage → Bool
  | cancelled => true
  | _ => false

/-- The skill has gone on to the client or has its output. -/
def ExecutionStage.ran : ExecutionStage → Bool
  | invoking _ => true
  | returned _ => true
  | _ => false

/-- `manifest.network.allow_all or len(manifest.network.allowed_domains) > 0` -/
def NetworkScope.used (scope : NetworkScope) : Bool := scope.allowAll || 0 < scope.allowedDomains.length

/-- Any sensitive domain is declared. -/
def DataScope.requiresEnhancedAudit (scope : DataScope) : Bool :=
  [DataDomain.pii, .financial, .medical, .credentials].any fun d => scope.domains.contains d.value

namespace Execution

variable (c : Execution)

def audit (event : String) : Execution := { c with auditTrail := c.auditTrail ++ [event] }

def trustRequest : TrustRequest where
  agentId := c.agentId
  trustLevel := c.trustLevel
  action := s!"skill.execute.{c.skillId}"
  toolCategory := "skill"
  requiresNetwork := c.manifest.any fun manifest => manifest.network.used

def gateCall (executionId : String) : GateCall where
  toTrustRequest := c.trustRequest
  task := c.task.getD { minimalTask executionId "" "" with description := s!"Skill execution: {c.skillId}" }

/-- The sandbox of the context. -/
def sandboxConfig : Dict Value :=
  match c.manifest with
  | none => []
  | some manifest =>
    [("allowNetwork", .bool manifest.network.used),
      ("allowedDomains", .list (if manifest.network.allowAll then [.str "*"] else manifest.network.allowedDomains.map .str)),
      ("allowedPaths", .list (manifest.filesystem.allowedPaths.map .str)),
      ("readOnly", .bool manifest.filesystem.readOnly),
      ("allowedCommands", .list (manifest.commands.allowedCommands.map .str)),
      ("dataScopes", .list (manifest.data.domains.map .str)),
      ("requiresEnhancedAudit", .bool manifest.data.requiresEnhancedAudit)]

/-- What an execution without a server gives. -/
def stub : Value :=
  .dict [("skillId", .str c.skillId), ("arguments", .dict c.arguments), ("sandboxConfig", .dict c.sandboxConfig),
    ("result", .str "ok")]

/-- The first of the two `except` clauses. -/
def expected : PyError → Bool
  | .other cls _ => ["SkillNotAvailableError", "SkillManifestError", "SkillGateDeniedError"].contains cls
  | _ => false

def raises (exc : PyError) : Execution :=
  if expected exc then { c.audit "skill.execution.failed" with stage := .raised exc }
  else
    { c.audit "skill.execution.error" with
      stage := .raised (.other "SkillExecutionError" s!"Unexpected error executing skill '{c.skillId}': {exc.str}") }

def returns (output : Value) : Execution :=
  { (c.audit "skill.executed").audit "skill.execution.completed" with stage := .returned output }

end Execution

structure SkillExecutor where
  registry : SkillRegistry := {}
  client : MCPClient
  validator : ManifestValidator
  gate : Option PolicyGate
  executionCount : Nat := 0
  successCount : Nat := 0
  failureCount : Nat := 0
  manifests : Dict CapabilityManifest := []
  executions : List Execution := []

namespace SkillExecutor

variable (py : PyLib) (lower : String → String) (s : SkillExecutor)

def registerManifest (skillId : String) (manifest : CapabilityManifest) : SkillExecutor :=
  { s with manifests := s.manifests.set skillId manifest }

def put (k : Nat) (c : Execution) : SkillExecutor := { s with executions := s.executions.set k c }

def fail (k : Nat) (c : Execution) (exc : PyError) : SkillExecutor :=
  { s.put k (c.raises exc) with failureCount := s.failureCount + 1 }

def complete (k : Nat) (c : Execution) (output : Value) : SkillExecutor :=
  { s.put k (c.returns output) with successCount := s.successCount + 1 }

/-- The invocation comes back to `_execute`, once it is over. -/
def comeBack (k : Nat) (c : Execution) (invocation : Nat) : SkillExecutor :=
  match s.client.calls[invocation]? with
  | none => s
  | some call =>
    match call.stage with
    | .returned result =>
      if result.isError then
        s.fail k c (.other "SkillExecutionError" s!"MCP tool '{c.skillId}' returned error: {py.str result.content}")
      else s.complete k c result.content
    | .denied message => s.fail k c (.other "SkillGateDeniedError" message)
    | .serverGone => s.fail k c (.other "SkillExecutionError" (reprString call.serverId))
    | .cancelled => s.put k { c with stage := .cancelled }
    | .gating => s
    | .calling => s

/-- From the gate on. -/
def execute (k : Nat) (c : Execution) : SkillExecutor :=
  if c.mcpServerId = "" then s.complete k c c.stub
  else
    match s.client.requireConnected c.mcpServerId with
    | .error exc => s.fail k c (.other "SkillExecutionError" exc.str)
    | .ok _ =>
      let invocation := s.client.calls.length
      let client := s.client.invokeTool c.mcpServerId c.skillId c.arguments c.agentId c.trustLevel none
      let c := { c with stage := .invoking invocation }
      ({ s with client }.put k c).comeBack py k c invocation

/-- Up to the gate. -/
def begin (k : Nat) (c : Execution) : SkillExecutor :=
  match s.registry.skills.get? c.skillId with
  | none =>
    s.fail k c (.other "SkillNotAvailableError" s!"Skill '{c.skillId}' is not installed in the registry.")
  | some record =>
    let c := c.audit "skill.registry.loaded"
    let manifest := s.manifests.get? c.skillId
    match s.validator.validate lower manifest with
    | .error exc =>
      s.fail k c (.other "SkillManifestError" s!"Manifest validation failed for skill '{c.skillId}': {exc.str}")
    | .ok [] =>
      let c := { (c.audit "skill.manifest.validated").audit "skill.context.built" with
                  manifest, mcpServerId := record.mcpServerId }
      if s.gate.isSome then s.put k c else s.execute py k c
    | .ok violations =>
      let listed := "; ".intercalate violations
      s.fail k c (.other "SkillManifestError" s!"Manifest for skill '{c.skillId}' has violations: {listed}")

def executeSkill (skillId : String) (arguments : Dict Value) (agentId : String) (trustLevel : TrustLevel)
    (task : Option Task) : SkillExecutor :=
  let c : Execution := { skillId, arguments, agentId, trustLevel, task, auditTrail := ["skill.execution.started"] }
  { s with executionCount := s.executionCount + 1, executions := s.executions ++ [c] }.begin py lower s.executions.length c

/-- The gate comes to its decision, and the execution goes on. -/
def gateAnswers (k : Nat) (executionId : String) (m : GateMoment) : SkillExecutor :=
  match s.gate, s.executions[k]? with
  | some gate, some c =>
    match c.stage with
    | .gating =>
      let (decision, gate) := gate.gateAction py none (c.gateCall executionId) m
      let s := { s with gate := some gate }
      let c := { c with decision := some decision }
      if !decision.allowed then
        s.fail k (c.audit "skill.gate.denied")
          (.other "SkillGateDeniedError" s!"PolicyGate denied execution of skill '{c.skillId}': {decision.reason}")
      else s.execute py k (c.audit "skill.gate.allowed")
    | _ => s
  | _, _ => s

def resume (k : Nat) : SkillExecutor :=
  match s.executions[k]? with
  | none => s
  | some c =>
    match c.stage with
    | .invoking invocation => s.comeBack py k c invocation
    | _ => s

/-- A cancelled call counts neither as a success nor as a failure. -/
def cancel (k : Nat) : SkillExecutor :=
  match s.executions[k]? with
  | none => s
  | some c =>
    match c.stage with
    | .gating => s.put k { c with stage := .cancelled }
    | _ => s

end SkillExecutor

/-- Registry, client and gate have other users too. -/
inductive SkillEvent where
  | registry (e : RegistryEvent)
  | client (e : McpEvent)
  | gateUsed (engine : PolicyEngine) (evaluationCount bypassAttempts : Nat)
  | registerManifest (skillId : String) (manifest : CapabilityManifest)
  | executeSkill (skillId : String) (arguments : Dict Value) (agentId : String) (trustLevel : TrustLevel) (task : Option Task)
  | gateAnswers (k : Nat) (executionId : String) (m : GateMoment)
  | resume (k : Nat)
  | cancel (k : Nat)

def SkillEvent.Executes (skillId : String) : SkillEvent → Prop
  | executeSkill id _ _ _ _ => id = skillId
  | _ => False

def SkillExecutor.step (py : PyLib) (lower : String → String) (s : SkillExecutor) : SkillEvent → SkillExecutor
  | .registry e => { s with registry := s.registry.step e }
  | .client e => { s with client := s.client.step py e }
  | .gateUsed engine evaluationCount bypassAttempts =>
    { s with gate := s.gate.map fun gate => { gate with engine, evaluationCount, bypassAttempts } }
  | .registerManifest skillId manifest => s.registerManifest skillId manifest
  | .executeSkill skillId arguments agentId trustLevel task => s.executeSkill py lower skillId arguments agentId trustLevel task
  | .gateAnswers k executionId m => s.gateAnswers py k executionId m
  | .resume k => s.resume py k
  | .cancel k => s.cancel k

/-! ## What is counted -/

namespace SkillExecutor

variable {py : PyLib} {lower : String → String} {s : SkillExecutor} {k : Nat} {c : Execution}

/-- The counts are those of the executions. -/
structure Tally (s : SkillExecutor) : Prop where
  executions : s.executionCount = s.executions.length
  successes : s.successCount = s.executions.countP (·.stage.succeeded)
  failures : s.failureCount = s.executions.countP (·.stage.failed)

/-- The execution at the place is still open. -/
def OpenAt (s : SkillExecutor) (k : Nat) : Prop := ∃ c, s.executions[k]? = some c ∧ c.stage.isOpen = true

theorem not_settled_of_open {stage : ExecutionStage} (h : stage.isOpen = true) :
    stage.succeeded = false ∧ stage.failed = false := by
  cases stage with
  | gating => exact ⟨rfl, rfl⟩
  | invoking => exact ⟨rfl, rfl⟩
  | _ => cases h

theorem not_failed_of_ran {stage : ExecutionStage} (h : stage.ran = true) : stage.failed = false := by
  cases stage with
  | invoking => rfl
  | returned => rfl
  | _ => cases h

theorem stage_raises (c : Execution) (exc : PyError) : ∃ exc', (c.raises exc).stage = .raised exc' := by
  unfold Execution.raises
  split
  · exact ⟨_, rfl⟩
  · exact ⟨_, rfl⟩

/-- An open execution changes, and is counted once it is settled. -/
theorem Tally.change (h : Tally s) (hk : s.OpenAt k) {s' : SkillExecutor} (hexecutions : s'.executions = s.executions.set k c)
    (hcount : s'.executionCount = s.executionCount)
    (hsuccesses : s'.successCount = s.successCount + if c.stage.succeeded then 1 else 0)
    (hfailures : s'.failureCount = s.failureCount + if c.stage.failed then 1 else 0) : Tally s' := by
  obtain ⟨c₀, hk, hopen⟩ := hk
  obtain ⟨hsucceeded, hfailed⟩ := not_settled_of_open hopen
  have hset := countP_set_add (·.stage.succeeded) hk (y := c)
  have hset' := countP_set_add (·.stage.failed) hk (y := c)
  rw [hsucceeded] at hset
  rw [hfailed] at hset'
  refine ⟨?_, ?_, ?_⟩
  · rw [hcount, hexecutions, List.length_set, h.executions]
  · rw [hsuccesses, hexecutions, h.successes]
    exact hset.symm
  · rw [hfailures, hexecutions, h.failures]
    exact hset'.symm

theorem Tally.put (h : Tally s) (hk : s.OpenAt k) (hc : c.stage.succeeded = false ∧ c.stage.failed = false) :
    Tally (s.put k c) := by
  refine h.change hk rfl rfl ?_ ?_
  · rw [hc.1]
    rfl
  · rw [hc.2]
    rfl

theorem Tally.fail (h : Tally s) (hk : s.OpenAt k) (exc : PyError) : Tally (s.fail k c exc) := by
  obtain ⟨exc', hstage⟩ := stage_raises c exc
  refine h.change hk rfl rfl ?_ ?_
  · rw [hstage]
    rfl
  · rw [hstage]
    rfl

theorem Tally.complete (h : Tally s) (hk : s.OpenAt k) (output : Value) : Tally (s.complete k c output) :=
  h.change hk rfl rfl rfl rfl

theorem Tally.comeBack (h : Tally s) (hk : s.OpenAt k) (invocation : Nat) : Tally (s.comeBack py k c invocation) := by
  unfold SkillExecutor.comeBack
  split
  · exact h
  · split
    · split
      · exact h.fail hk _
      · exact h.complete hk _
    · exact h.fail hk _
    · exact h.fail hk _
    · exact h.put hk ⟨rfl, rfl⟩
    · exact h
    · exact h

/-- What is put back open stays open. -/
theorem openAt_put (hk : s.OpenAt k) (hc : c.stage.isOpen = true) : (s.put k c).OpenAt k := by
  obtain ⟨c₀, hk, -⟩ := hk
  exact ⟨c, List.getElem?_set_self (List.getElem?_eq_some_iff.mp hk).1, hc⟩

theorem Tally.execute (h : Tally s) (hk : s.OpenAt k) : Tally (s.execute py k c) := by
  unfold SkillExecutor.execute
  split
  · exact h.complete hk _
  · split
    · exact h.fail hk _
    · have hclient : Tally { s with
          client := s.client.invokeTool c.mcpServerId c.skillId c.arguments c.agentId c.trustLevel none } :=
        ⟨h.executions, h.successes, h.failures⟩
      have hput := hclient.put (c := { c with stage := .invoking s.client.calls.length }) hk ⟨rfl, rfl⟩
      exact hput.comeBack (openAt_put (s := { s with client := _ }) hk rfl) _

theorem Tally.begin (h : Tally s) (hk : s.OpenAt k) (hc : c.stage = .gating) : Tally (s.begin py lower k c) := by
  unfold SkillExecutor.begin
  split
  · exact h.fail hk _
  · dsimp only
    split
    · exact h.fail hk _
    · split
      · exact h.put hk (not_settled_of_open (by simp [Execution.audit, hc, ExecutionStage.isOpen]))
      · exact h.execute hk
    · exact h.fail hk _

theorem Tally.step (h : Tally s) (e : SkillEvent) : Tally (s.step py lower e) := by
  cases e with
  | registry | client | gateUsed | registerManifest => exact ⟨h.executions, h.successes, h.failures⟩
  | executeSkill skillId arguments agentId trustLevel task =>
    refine Tally.begin ⟨?_, ?_, ?_⟩ ⟨_, List.getElem?_concat_length, rfl⟩ rfl
    · rw [List.length_append, h.executions, List.length_singleton]
    · rw [List.countP_append, h.successes]
      rfl
    · rw [List.countP_append, h.failures]
      rfl
  | gateAnswers k executionId m =>
    simp only [SkillExecutor.step, SkillExecutor.gateAnswers]
    split
    · next gate c hgate hk =>
      split
      · next hstage =>
        have hopen : s.OpenAt k := ⟨c, hk, by rw [hstage]; rfl⟩
        have hgate : Tally { s with gate := some (gate.gateAction py none (c.gateCall executionId) m).2 } :=
          ⟨h.executions, h.successes, h.failures⟩
        split
        · exact hgate.fail hopen _
        · exact hgate.execute hopen
      · exact h
    · exact h
  | resume k =>
    simp only [SkillExecutor.step, SkillExecutor.resume]
    split
    · exact h
    · next c hk =>
      split
      · next invocation hstage => exact h.comeBack ⟨c, hk, by rw [hstage]; rfl⟩ invocation
      · exact h
  | cancel k =>
    simp only [SkillExecutor.step, SkillExecutor.cancel]
    split
    · exact h
    · next c hk =>
      split
      · next hstage => exact h.put ⟨c, hk, by rw [hstage]; rfl⟩ ⟨rfl, rfl⟩
      · exact h

/-- Every execution is in one of four ways. -/
theorem countP_ways (executions : List Execution) : executions.length = executions.countP (·.stage.succeeded) +
    executions.countP (·.stage.failed) + executions.countP (·.stage.isOpen) + executions.countP (·.stage.wasCancelled) := by
  induction executions with
  | nil => rfl
  | cons c executions ih =>
    simp only [List.length_cons, List.countP_cons, ih]
    cases c.stage <;> simp [ExecutionStage.succeeded, ExecutionStage.failed, ExecutionStage.isOpen, ExecutionStage.wasCancelled] <;>
      omega

/-- The executions that were counted are those that succeeded, those that failed, those that wait for the gate or for the
client, and those that were cancelled, which nothing counts. -/
def Accounted (s : SkillExecutor) : Prop :=
  s.executionCount = s.successCount + s.failureCount + s.executions.countP (·.stage.isOpen) +
    s.executions.countP (·.stage.wasCancelled)

/-- **Every execution is accounted for.** -/
theorem executions_accounted (py : PyLib) (lower : String → String) (client : MCPClient) (validator : ManifestValidator)
    (gate : Option PolicyGate) (registry : SkillRegistry) (events : List SkillEvent) :
    Accounted (run (step py lower) { client, validator, gate, registry } events) := by
  have htally : Tally (run (step py lower) { client, validator, gate, registry } events) :=
    run_invariant Tally (fun _ e h => h.step e) ⟨rfl, rfl, rfl⟩ events
  unfold Accounted
  rw [htally.executions, htally.successes, htally.failures]
  exact countP_ways _

/-! ## What the client keeps -/

/-- The invocation is of what the execution is for. -/
def Asks (c : Execution) (call : Invocation) : Prop :=
  call.serverId = c.mcpServerId ∧ call.toolName = c.skillId ∧ call.arguments = c.arguments ∧ call.agentId = c.agentId ∧
    call.trustLevel = c.trustLevel

/-- Invocations stay what they are of, and results stay. -/
def Later (client client' : MCPClient) : Prop :=
  ∀ (i : Nat) (call : Invocation), client.calls[i]? = some call → ∃ call', client'.calls[i]? = some call' ∧
    (∀ c, Asks c call → Asks c call') ∧ ∀ result, call.stage = .returned result → call' = call

variable {client client' : MCPClient} {call : Invocation}

theorem later_of_calls (h : client'.calls = client.calls) : Later client client' :=
  fun _ call hi => ⟨call, h ▸ hi, fun _ hasks => hasks, fun _ _ => rfl⟩

/-- Decision and stage of an invocation change until it has its result. -/
theorem later_set {j : Nat} {decision : Option GateDecision} {stage : InvocationStage} (hj : client.calls[j]? = some call)
    (hopen : ∀ result, call.stage ≠ .returned result)
    (hcalls : client'.calls = client.calls.set j { call with decision, stage }) : Later client client' := by
  intro i call₀ hi
  by_cases hne : i = j
  · subst hne
    obtain rfl : call = call₀ := Option.some.inj (hj.symm.trans hi)
    refine ⟨{ call with decision, stage }, ?_, fun _ hasks => hasks, ?_⟩
    · rw [hcalls, List.getElem?_set_self (List.getElem?_eq_some_iff.mp hi).1]
    · exact fun result hresult => absurd hresult (hopen result)
  · exact ⟨call₀, by rw [hcalls, List.getElem?_set_ne (Ne.symm hne), hi], fun _ hasks => hasks, fun _ _ => rfl⟩

theorem later_concat (hcalls : client'.calls = client.calls ++ [call]) : Later client client' :=
  fun _ call₀ hi => ⟨call₀, by rw [hcalls, getElem?_concat_of_some hi], fun _ hasks => hasks, fun _ _ => rfl⟩

theorem Later.trans {client'' : MCPClient} (h : Later client client') (h' : Later client' client'') : Later client client'' := by
  intro i call hi
  obtain ⟨call', hi', hsame, hresult⟩ := h i call hi
  obtain ⟨call'', hi'', hsame', hresult'⟩ := h' i call' hi'
  refine ⟨call'', hi'', fun c hasks => hsame' c (hsame c hasks), fun result hstage => ?_⟩
  obtain rfl : call' = call := hresult result hstage
  exact hresult' result hstage

/-- From the gate on, the stage of an invocation changes. -/
theorem calls_execute (client : MCPClient) (j : Nat) (call : Invocation) :
    ∃ stage, (client.execute j call).calls = client.calls.set j { call with stage } := by
  unfold MCPClient.execute
  split
  · exact ⟨_, rfl⟩
  · split
    · exact ⟨_, rfl⟩
    · exact ⟨_, rfl⟩

theorem later_moves (h : MCPClient.Moves py client client') : Later client client' := by
  have hgating {call : Invocation} (hstage : call.stage = .gating) (result : MCPInvocationResult) :
      call.stage ≠ .returned result := by simp [hstage]
  have hcalling {call : Invocation} (hstage : call.stage = .calling) (result : MCPInvocationResult) :
      call.stage ≠ .returned result := by simp [hstage]
  cases h with
  | framed hframed =>
    obtain ⟨_, _, _, _, _, rfl⟩ := hframed
    exact later_of_calls rfl
  | raw event hraw => exact later_of_calls rfl
  | started call hserver hstage hdecision hgate => exact later_concat rfl
  | ungated call hserver hstage hdecision hgate =>
    have hstart : Later client { client with
        totalInvocations := client.totalInvocations + 1, calls := client.calls ++ [call] } := later_concat rfl
    obtain ⟨stage, hcalls⟩ := calls_execute
      { client with totalInvocations := client.totalInvocations + 1, calls := client.calls ++ [call] } client.calls.length call
    exact hstart.trans (later_set List.getElem?_concat_length (hgating hstage) hcalls)
  | decided j auditId m gate call hj hgate hstage =>
    exact later_set hj (hgating hstage) rfl
  | denied j call decision message hj hstage =>
    exact later_set hj (hgating hstage) rfl
  | allowed j call decision hj hstage hdecision hallowed =>
    obtain ⟨stage, hcalls⟩ := calls_execute client j call
    exact later_set hj (hgating hstage) hcalls
  | replied j call result hj hstage =>
    exact later_set hj (hcalling hstage) rfl
  | cancelled j call hj hstage =>
    refine later_set hj ?_ rfl
    rcases hstage with hstage | hstage
    · exact hgating hstage
    · exact hcalling hstage

/-- A connected server gets the invocation that was asked for. -/
theorem asks_invokeTool {c : Execution} {connected : Nat × ServerState}
    (h : client.requireConnected c.mcpServerId = .ok connected) :
    ∃ call, (client.invokeTool c.mcpServerId c.skillId c.arguments c.agentId c.trustLevel none).calls[client.calls.length]? =
      some call ∧ Asks c call := by
  unfold MCPClient.invokeTool
  rw [h]
  dsimp only
  split
  · exact ⟨_, List.getElem?_concat_length, rfl, rfl, rfl, rfl, rfl⟩
  · rw [List.length_append, List.length_singleton, Nat.add_sub_cancel]
    obtain ⟨stage, hcalls⟩ := calls_execute _ client.calls.length _
    rw [hcalls, List.getElem?_set_self (by simp)]
    exact ⟨_, rfl, rfl, rfl, rfl, rfl, rfl⟩

/-! ## Every skill that runs went through the checks -/

/-- What is to hold of the id, the server and the manifest that an execution begins with. -/
abbrev Origin := String → String → Option CapabilityManifest → Prop

variable {validator : ManifestValidator} {origin origin' : Origin} {enforcer : Option TrustEnforcer}

/-- What the gate allowed had passed the trust levels and the policy engine. -/
def Passed (enforcer : TrustEnforcer) (c : Execution) : Prop :=
  ∀ d, c.decision = some d → d.allowed = true →
    (enforcer.checkAction c.trustRequest).allowed = true ∧ ∃ r, d.gateResult = some r ∧ r.approved = true

/-- The execution began as it had to, and the gate, where there is one, has allowed it. -/
structure Cleared (origin : Origin) (enforcer : Option TrustEnforcer) (c : Execution) : Prop where
  origin : origin c.skillId c.mcpServerId c.manifest
  allowed : ∀ e, enforcer = some e → ∃ d, c.decision = some d ∧ d.allowed = true
  passed : ∀ e, enforcer = some e → Passed e c

/-- The output is that of the stub, or the content of the client's result for the same skill, which is no error. -/
def OutputOf (client : MCPClient) (c : Execution) (output : Value) : Prop :=
  if c.mcpServerId = "" then output = c.stub
  else ∃ (i : Nat) (call : Invocation) (result : MCPInvocationResult), client.calls[i]? = some call ∧ Asks c call ∧
    call.stage = .returned result ∧ result.isError = false ∧ output = result.content

structure Justified (origin : Origin) (enforcer : Option TrustEnforcer) (client : MCPClient) (c : Execution) : Prop where
  began : c.stage.failed = false → origin c.skillId c.mcpServerId c.manifest
  cleared : c.stage.ran = true → Cleared origin enforcer c
  asked : ∀ i, c.stage = .invoking i → c.mcpServerId ≠ "" ∧ ∃ call, client.calls[i]? = some call ∧ Asks c call
  output : ∀ output, c.stage = .returned output → OutputOf client c output

theorem Justified.later (h : Justified origin enforcer client c) (hlater : Later client client') :
    Justified origin enforcer client' c where
  began := h.began
  cleared := h.cleared
  asked i hi := by
    obtain ⟨hserver, call, hcall, hasks⟩ := h.asked i hi
    obtain ⟨call', hcall', hsame, -⟩ := hlater i call hcall
    exact ⟨hserver, call', hcall', hsame c hasks⟩
  output output hstage := by
    have houtput := h.output output hstage
    unfold OutputOf at houtput ⊢
    split
    · next hserver => rwa [if_pos hserver] at houtput
    · next hserver =>
      rw [if_neg hserver] at houtput
      obtain ⟨i, call, result, hcall, hasks, hresult, hrest⟩ := houtput
      obtain ⟨call', hcall', -, hsame⟩ := hlater i call hcall
      obtain rfl : call' = call := hsame result hresult
      exact ⟨i, call', result, hcall', hasks, hresult, hrest⟩

/-- Nothing is said of an execution that failed. -/
theorem justified_raises (c : Execution) (exc : PyError) : Justified origin enforcer client (c.raises exc) := by
  obtain ⟨exc', hstage⟩ := stage_raises c exc
  constructor
  · simp [hstage, ExecutionStage.failed]
  · simp [hstage, ExecutionStage.ran]
  · simp [hstage]
  · simp [hstage]

theorem justified_waiting (horigin : origin c.skillId c.mcpServerId c.manifest)
    (hstage : c.stage = .gating ∨ c.stage = .cancelled) : Justified origin enforcer client c := by
  refine ⟨fun _ => horigin, ?_, ?_, ?_⟩
  · rcases hstage with hstage | hstage <;> simp [hstage, ExecutionStage.ran]
  · rcases hstage with hstage | hstage <;> simp [hstage]
  · rcases hstage with hstage | hstage <;> simp [hstage]

theorem Cleared.returns (h : Cleared origin enforcer c) {output : Value} (houtput : OutputOf client c output) :
    Justified origin enforcer client (c.returns output) where
  began _ := h.origin
  cleared _ := ⟨h.origin, h.allowed, h.passed⟩
  asked _ hi := nomatch hi
  output output' hstage := by
    obtain rfl : output = output' := ExecutionStage.returned.inj hstage
    exact houtput

/-- All but the execution at this place are justified, by what the executor has. -/
structure MediatedBut (validator : ManifestValidator) (origin : Origin) (enforcer : Option TrustEnforcer) (k : Option Nat)
    (s : SkillExecutor) : Prop where
  sameValidator : s.validator = validator
  sameEnforcer : s.gate.map (·.trustEnforcer) = enforcer
  executions : ∀ (i : Nat) (c : Execution), s.executions[i]? = some c → some i ≠ k →
    Justified origin enforcer s.client c

abbrev Mediated (validator : ManifestValidator) (origin : Origin) (enforcer : Option TrustEnforcer)
    (s : SkillExecutor) : Prop := MediatedBut validator origin enforcer none s

theorem Mediated.but (h : Mediated validator origin enforcer s) (k : Option Nat) : MediatedBut validator origin enforcer k s :=
  ⟨h.sameValidator, h.sameEnforcer, fun i c hi _ => h.executions i c hi nofun⟩

theorem MediatedBut.change (h : MediatedBut validator origin enforcer (some k) s) {s' : SkillExecutor}
    (hvalidator : s'.validator = s.validator) (hgate : s'.gate = s.gate) (hclient : s'.client = s.client)
    (hexecutions : s'.executions = s.executions.set k c) (hc : Justified origin enforcer s.client c) :
    Mediated validator origin enforcer s' where
  sameValidator := hvalidator.trans h.sameValidator
  sameEnforcer := by rw [hgate, h.sameEnforcer]
  executions i c' hi _ := by
    rw [hexecutions] at hi
    rw [hclient]
    rcases getElem?_set_cases hi with ⟨-, rfl⟩ | ⟨hne, hi⟩
    · exact hc
    · exact h.executions i c' hi fun heq => hne (Option.some.inj heq)

theorem MediatedBut.put (h : MediatedBut validator origin enforcer (some k) s) (hc : Justified origin enforcer s.client c) :
    Mediated validator origin enforcer (s.put k c) := h.change rfl rfl rfl rfl hc

theorem MediatedBut.fail (h : MediatedBut validator origin enforcer (some k) s) (exc : PyError) :
    Mediated validator origin enforcer (s.fail k c exc) := h.change rfl rfl rfl rfl (justified_raises c exc)

theorem MediatedBut.complete (h : MediatedBut validator origin enforcer (some k) s) (hc : Cleared origin enforcer c)
    {output : Value} (houtput : OutputOf s.client c output) : Mediated validator origin enforcer (s.complete k c output) :=
  h.change rfl rfl rfl rfl (hc.returns houtput)

theorem MediatedBut.later {k : Option Nat} (h : MediatedBut validator origin enforcer k s) (hlater : Later s.client client') :
    MediatedBut validator origin enforcer k { s with client := client' } :=
  ⟨h.sameValidator, h.sameEnforcer, fun i c hi hk => (h.executions i c hi hk).later hlater⟩

theorem Mediated.comeBack (h : Mediated validator origin enforcer s) (hc : Cleared origin enforcer c) {i : Nat}
    (hserver : c.mcpServerId ≠ "") (hasked : ∃ call, s.client.calls[i]? = some call ∧ Asks c call) :
    Mediated validator origin enforcer (s.comeBack py k c i) := by
  obtain ⟨call, hcall, hasks⟩ := hasked
  unfold SkillExecutor.comeBack
  rw [hcall]
  dsimp only
  split
  · next result hresult =>
    split
    · exact (h.but _).fail _
    · next hok =>
      refine (h.but _).complete hc ?_
      rw [OutputOf, if_neg hserver]
      exact ⟨i, call, result, hcall, hasks, hresult, by simpa using hok, rfl⟩
  · exact (h.but _).fail _
  · exact (h.but _).fail _
  · exact (h.but _).put (justified_waiting hc.origin (.inr rfl))
  · exact h
  · exact h

theorem MediatedBut.execute (h : MediatedBut validator origin enforcer (some k) s) (hc : Cleared origin enforcer c) :
    Mediated validator origin enforcer (s.execute py k c) := by
  unfold SkillExecutor.execute
  split
  · next hserver =>
    refine h.complete hc ?_
    rw [OutputOf, if_pos hserver]
  · next hserver =>
    split
    · exact h.fail _
    · next connected hconnected =>
      have hmoves := later_moves (MCPClient.moves_step py s.client
        (.invokeTool c.mcpServerId c.skillId c.arguments c.agentId c.trustLevel none))
      obtain ⟨call, hcall, hasks⟩ := asks_invokeTool hconnected
      have hcleared : Cleared origin enforcer { c with stage := .invoking s.client.calls.length } :=
        ⟨hc.origin, hc.allowed, hc.passed⟩
      have hasked : ∃ call', (s.client.invokeTool c.mcpServerId c.skillId c.arguments c.agentId c.trustLevel
          none).calls[s.client.calls.length]? = some call' ∧
          Asks { c with stage := .invoking s.client.calls.length } call' :=
        ⟨call, hcall, hasks⟩
      have hput := (h.later hmoves).put (c := { c with stage := .invoking s.client.calls.length })
        ⟨fun _ => hc.origin, fun _ => hcleared, fun i hi => ExecutionStage.invoking.inj hi ▸ ⟨hserver, hasked⟩, nofun⟩
      exact hput.comeBack hcleared hserver hasked

theorem MediatedBut.begin (h : MediatedBut validator origin enforcer (some k) s) (hstage : c.stage = .gating)
    (horigin : ∀ record, s.registry.skills.get? c.skillId = some record →
      validator.validate lower (s.manifests.get? c.skillId) = .ok [] →
        origin c.skillId record.mcpServerId (s.manifests.get? c.skillId)) :
    Mediated validator origin enforcer (s.begin py lower k c) := by
  unfold SkillExecutor.begin
  split
  · exact h.fail _
  · next record hrecord =>
    dsimp only
    split
    · exact h.fail _
    · next hvalid =>
      rw [h.sameValidator] at hvalid
      have hbegan := horigin record hrecord hvalid
      split
      · exact h.put (justified_waiting hbegan (.inl hstage))
      · next hgate =>
        have hnone : enforcer = none := by
          rw [← h.sameEnforcer]
          simpa using hgate
        subst hnone
        exact h.execute ⟨hbegan, nofun, nofun⟩
    · exact h.fail _

/-- The gate clears what it allows. -/
theorem Mediated.answer (h : Mediated validator origin enforcer s) (py : PyLib) {gate : PolicyGate} (hgate : s.gate = some gate)
    (hk : s.executions[k]? = some c) (hstage : c.stage = .gating) (executionId : String) (m : GateMoment) :
    Mediated validator origin enforcer { s with gate := some (gate.gateAction py none (c.gateCall executionId) m).2 } ∧
      ((gate.gateAction py none (c.gateCall executionId) m).1.allowed = true →
        Cleared origin enforcer ({ c with
          decision := some (gate.gateAction py none (c.gateCall executionId) m).1 }.audit "skill.gate.allowed")) := by
  obtain ⟨hsame, hallows⟩ := MCPClient.gateAction_spec py gate (c.gateCall executionId) m
  have henforcer : some gate.trustEnforcer = enforcer := by
    rw [← h.sameEnforcer, hgate, Option.map_some]
  refine ⟨⟨h.sameValidator, ?_, h.executions⟩, fun hallowed => ?_⟩
  · rw [Option.map_some, hsame, henforcer]
  refine ⟨?_, fun _ _ => ⟨_, rfl, hallowed⟩, fun e he d hd _ => ?_⟩
  · exact (h.executions k c hk nofun).began (by rw [hstage]; rfl)
  · obtain rfl : gate.trustEnforcer = e := Option.some.inj (henforcer.trans he)
    obtain rfl : (gate.gateAction py none (c.gateCall executionId) m).1 = d := Option.some.inj hd
    exact hallows hallowed

theorem Mediated.step (h : Mediated validator origin enforcer s) (e : SkillEvent)
    (horigin : ∀ skillId record, e.Executes skillId → s.registry.skills.get? skillId = some record →
      validator.validate lower (s.manifests.get? skillId) = .ok [] →
        origin skillId record.mcpServerId (s.manifests.get? skillId)) :
    Mediated validator origin enforcer (s.step py lower e) := by
  cases e with
  | registry | registerManifest => exact ⟨h.sameValidator, h.sameEnforcer, h.executions⟩
  | client e => exact h.later (later_moves (MCPClient.moves_step py s.client e))
  | gateUsed engine evaluationCount bypassAttempts =>
    refine ⟨h.sameValidator, ?_, h.executions⟩
    rw [← h.sameEnforcer, SkillExecutor.step, Option.map_map]
    rfl
  | executeSkill skillId arguments agentId trustLevel task =>
    have hrest : ∀ (i : Nat) (c : Execution),
        (s.executions ++ [({ skillId, arguments, agentId, trustLevel, task, auditTrail := ["skill.execution.started"] } :
          Execution)])[i]? = some c → some i ≠ some s.executions.length → Justified origin enforcer s.client c := by
      intro i c hi hne
      rcases getElem?_concat_cases hi with ⟨rfl, -⟩ | hi
      · exact absurd rfl hne
      · exact h.executions i c hi nofun
    exact MediatedBut.begin ⟨h.sameValidator, h.sameEnforcer, hrest⟩ rfl fun record => horigin skillId record rfl
  | gateAnswers k executionId m =>
    simp only [SkillExecutor.step, SkillExecutor.gateAnswers]
    split
    · next gate c hgate hk =>
      split
      · next hstage =>
        obtain ⟨hnext, hcleared⟩ := h.answer py hgate hk hstage executionId m
        split
        · exact (hnext.but _).fail _
        · next hallowed => exact (hnext.but _).execute (hcleared (by simpa using hallowed))
      · exact h
    · exact h
  | resume k =>
    simp only [SkillExecutor.step, SkillExecutor.resume]
    split
    · exact h
    · next c hk =>
      split
      · next i hstage =>
        have hc := h.executions k c hk nofun
        obtain ⟨hserver, hasked⟩ := hc.asked i hstage
        exact h.comeBack (hc.cleared (by rw [hstage]; rfl)) hserver hasked
      · exact h
  | cancel k =>
    simp only [SkillExecutor.step, SkillExecutor.cancel]
    split
    · exact h
    · next c hk =>
      split
      · next hstage =>
        have hbegan := (h.executions k c hk nofun).began (by rw [hstage]; rfl)
        exact (h.but _).put (justified_waiting hbegan (.inr rfl))
      · exact h

theorem Mediated.mono (h : Mediated validator origin enforcer s)
    (horigin : ∀ skillId server manifest, origin skillId server manifest → origin' skillId server manifest) :
    Mediated validator origin' enforcer s where
  sameValidator := h.sameValidator
  sameEnforcer := h.sameEnforcer
  executions i c hi hne := by
    obtain ⟨hbegan, hcleared, hasked, houtput⟩ := h.executions i c hi hne
    refine ⟨fun hstage => horigin _ _ _ (hbegan hstage), fun hran => ?_, hasked, houtput⟩
    obtain ⟨-, hallowed, hpassed⟩ := hcleared hran
    exact ⟨horigin _ _ _ (hbegan (not_failed_of_ran hran)), hallowed, hpassed⟩

/-- The skill was asked for when it was installed, with this server, and this manifest, which is valid, was registered. -/
def Installed (py : PyLib) (lower : String → String) (start : SkillExecutor) (events : List SkillEvent) : Origin :=
  fun skillId server manifest => ∃ before e after record, events = before ++ e :: after ∧ e.Executes skillId ∧
    (run (step py lower) start before).registry.skills.get? skillId = some record ∧ record.mcpServerId = server ∧
    (run (step py lower) start before).manifests.get? skillId = manifest ∧ start.validator.validate lower manifest = .ok []

theorem mediated_run (py : PyLib) (lower : String → String) (start : SkillExecutor) (hstart : start.executions = [])
    (events : List SkillEvent) : Mediated start.validator (Installed py lower start events)
      (start.gate.map (·.trustEnforcer)) (run (step py lower) start events) := by
  induction events using List.reverseRecOn with
  | nil => exact ⟨rfl, rfl, fun i c hi _ => by simp [hstart] at hi⟩
  | append_singleton events e ih =>
    rw [Lib.run_append, Lib.run_cons, Lib.run_nil]
    have hlonger : Mediated start.validator (Installed py lower start (events ++ [e])) (start.gate.map (·.trustEnforcer))
        (run (step py lower) start events) := by
      refine ih.mono fun skillId server manifest h => ?_
      obtain ⟨before, e', after, record, hsplit, h⟩ := h
      exact ⟨before, e', after ++ [e], record, by rw [hsplit, List.append_assoc, List.cons_append], h⟩
    exact hlonger.step e fun skillId record he hrecord hvalid => ⟨events, e, [], record, rfl, he, hrecord, rfl, rfl, hvalid⟩

/-- Every execution is justified by what happened before. -/
def AllJustified (origin : Origin) (enforcer : Option TrustEnforcer) (s : SkillExecutor) : Prop :=
  ∀ c ∈ s.executions, Justified origin enforcer s.client c

theorem Mediated.allJustified (h : Mediated validator origin enforcer s) : AllJustified origin enforcer s := by
  intro c hc
  obtain ⟨i, hi⟩ := List.mem_iff_getElem?.mp hc
  exact h.executions i c hi nofun

/-- No constraint of the table has the category. -/
theorem skill_notMem_trustConstraints : ∀ entry ∈ trustConstraints, "skill" ∉ entry.2.maxToolCategories := by decide

def NoneRan (s : SkillExecutor) : Prop := ∀ c ∈ s.executions, c.stage.ran = false

/-- **Under the default table no skill runs.** A gate whose trust levels are the default ones denies every execution, at
every level. -/
theorem default_table_runs_no_skill (py : PyLib) (lower : String → String) (client : MCPClient) (validator : ManifestValidator)
    (gate : PolicyGate) (hdefault : gate.trustEnforcer = {}) (registry : SkillRegistry) (events : List SkillEvent) :
    NoneRan (run (step py lower) { client, validator, gate := some gate, registry } events) := by
  intro c hc
  by_contra hran
  have hmediated := mediated_run py lower { client, validator, gate := some gate, registry } rfl events
  obtain ⟨-, hallowed, hpassed⟩ := (hmediated.allJustified c hc).cleared (by simpa using hran)
  obtain ⟨d, hd, hallowed⟩ := hallowed _ rfl
  obtain ⟨htrust, -⟩ := hpassed _ rfl d hd hallowed
  obtain ⟨constraint, hlookup, hgrants⟩ := (gate.trustEnforcer.checkAction_allowed_iff c.trustRequest).mp htrust
  rw [hdefault] at hlookup
  obtain ⟨before, after, hsplit, -⟩ := List.lookup_eq_some_iff.mp hlookup
  have htable : (c.trustRequest.trustLevel, constraint) ∈ trustConstraints := by
    rw [show trustConstraints = before ++ (c.trustRequest.trustLevel, constraint) :: after from hsplit]
    simp
  exact skill_notMem_trustConstraints _ htable (hgrants.toolCategory (by simp [Execution.trustRequest]))

/-- A skill is installed with a valid manifest, and an orchestrator asks for it. -/
def mailerRun : List SkillEvent :=
  [.registry (.install "mailer" "Mailer" "1.0" "local" ""),
    .registerManifest "mailer" { skillId := "mailer", name := "Mailer", version := "1.0" },
    .executeSkill "mailer" [] "agent-1" .l5Orchestrator none,
    .gateAnswers 0 "id" { now := 0, timeOfDay := 0, entryId := "e", timestamp := "t" }]

theorem default_table_runs_no_skill_mailer :
    NoneRan (run (step plainLib ManifestValidator.asciiLower)
      { client := { gate := none, hasRealTransport := false }, validator := {}, gate := some {}, registry := {} } mailerRun) :=
  default_table_runs_no_skill plainLib ManifestValidator.asciiLower { gate := none, hasRealTransport := false } {} {} rfl {}
    mailerRun

/-! ## The client's gate -/

theorem client_comeBack (i : Nat) : (s.comeBack py k c i).client = s.client := by
  unfold SkillExecutor.comeBack
  split
  · rfl
  · split
    · split <;> rfl
    · rfl
    · rfl
    · rfl
    · rfl
    · rfl

/-- To go on from the gate is at most one call of the client. -/
theorem client_execute : (s.execute py k c).client = s.client ∨ ∃ e, (s.execute py k c).client = s.client.step py e := by
  unfold SkillExecutor.execute
  split
  · exact .inl rfl
  · split
    · exact .inl rfl
    · right
      rw [client_comeBack]
      exact ⟨.invokeTool c.mcpServerId c.skillId c.arguments c.agentId c.trustLevel none, rfl⟩

/-- A step of the executor is at most one of its client. -/
theorem client_step (s : SkillExecutor) (e : SkillEvent) :
    (s.step py lower e).client = s.client ∨ ∃ e', (s.step py lower e).client = s.client.step py e' := by
  cases e with
  | registry | gateUsed | registerManifest => exact .inl rfl
  | client e => exact .inr ⟨e, rfl⟩
  | executeSkill skillId arguments agentId trustLevel task =>
    simp only [SkillExecutor.step, SkillExecutor.executeSkill, SkillExecutor.begin]
    split
    · exact .inl rfl
    · split
      · exact .inl rfl
      · split
        · exact .inl rfl
        · exact client_execute (s := { s with executionCount := _, executions := _ })
      · exact .inl rfl
  | gateAnswers k executionId m =>
    simp only [SkillExecutor.step, SkillExecutor.gateAnswers]
    split
    · split
      · split
        · exact .inl rfl
        · exact client_execute (s := { s with gate := _ })
      · exact .inl rfl
    · exact .inl rfl
  | resume k =>
    simp only [SkillExecutor.step, SkillExecutor.resume]
    split
    · exact .inl rfl
    · split
      · exact .inl (client_comeBack _)
      · exact .inl rfl
  | cancel k =>
    simp only [SkillExecutor.step, SkillExecutor.cancel]
    split
    · exact .inl rfl
    · split <;> exact .inl rfl

/-- What every step of a client keeps is kept in the runs of an executor. -/
theorem client_invariant {inv : MCPClient → Prop} (hstep : ∀ client e, inv client → inv (client.step py e))
    {start : SkillExecutor} (hstart : inv start.client) (events : List SkillEvent) :
    inv (run (step py lower) start events).client := by
  refine run_invariant (fun s : SkillExecutor => inv s.client) (fun s e hs => ?_) hstart events
  rcases client_step s e with hsame | ⟨e', hnext⟩
  · rwa [hsame]
  · rw [hnext]
    exact hstep _ _ hs

/-- Whatever came from a server was asked for at a trust level whose constraint has the category `mcp`. -/
def ServersGranted (enforcer : TrustEnforcer) (s : SkillExecutor) : Prop :=
  ∀ c ∈ s.executions, ∀ output, c.stage = .returned output → c.mcpServerId ≠ "" →
    ∃ constraint, enforcer.constraints.lookup c.trustLevel = some constraint ∧ "mcp" ∈ constraint.maxToolCategories

/-- **A skill of a server passes two gates.** Where the client has a gate of its own, it too allowed each output that comes
from a server, whatever gate the executor has. -/
theorem server_skills_granted (py : PyLib) (lower : String → String) (clientGate : PolicyGate) (hasRealTransport : Bool)
    (validator : ManifestValidator) (gate : Option PolicyGate) (registry : SkillRegistry) (events : List SkillEvent) :
    ServersGranted clientGate.trustEnforcer
      (run (step py lower) { client := { gate := some clientGate, hasRealTransport }, validator, gate, registry } events) := by
  intro c hc output hstage hserver
  have hmediated := mediated_run py lower
    { client := { gate := some clientGate, hasRealTransport }, validator, gate, registry } rfl events
  have houtput := (hmediated.allJustified c hc).output output hstage
  rw [OutputOf, if_neg hserver] at houtput
  obtain ⟨i, call, result, hcall, ⟨-, -, -, -, htrust⟩, hresult, -⟩ := houtput
  have hclient : MCPClient.Mediated clientGate.trustEnforcer
      (run (step py lower) { client := { gate := some clientGate, hasRealTransport }, validator, gate, registry } events).client :=
    client_invariant (fun client e h => h.moves (MCPClient.moves_step py client e))
      ⟨⟨clientGate, rfl, rfl⟩, List.forall_mem_nil _, List.forall_mem_nil _, List.forall_mem_nil _⟩ events
  have hran : MCPClient.ran call = true := by rw [MCPClient.ran, hresult]
  obtain ⟨⟨constraint, hlookup, hcategory, -⟩, -⟩ := hclient.grants (List.mem_of_getElem? hcall) hran
  rw [htrust] at hlookup
  exact ⟨constraint, hlookup, hcategory⟩

end SkillExecutor

end Occp.Skills
