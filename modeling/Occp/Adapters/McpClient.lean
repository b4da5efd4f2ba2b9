import Occp.Adapters.PolicyGate
import Occp.Lib.Places
import Occp.Lib.Runs
import Occp.Policy.Verdict

/-!
# The MCP client (`adapters/mcp_client.py`)

Invocations side by side, of servers that are added, connected and removed meanwhile. A step takes one
invocation to its next await, which is the gate or the session of a server. The state of a server is an
object of its own: an invocation keeps the one that it began with. The audit id of an invocation is its
place, since no two are the same.
-/

namespace Occp.Adapters

open Policy
open Lib (run Admitted run_invariant countP_set_add getElem?_set_cases getElem?_concat_cases getElem?_concat_of_some)

inductive MCPTransport where
  | stdio
  | sse
  | http
  deriving DecidableEq

structure MCPServerConfig where
  serverId : String
  name : String
  transport : MCPTransport := .stdio

/-- `_ServerState`. Of its tools the names are read. -/
structure ServerState where
  config : MCPServerConfig
  connected : Bool := false
  connectCount : Nat := 0
  disconnectCount : Nat := 0
  tools : List String := []
  session : Bool := false
  useRealTransport : Bool := false

def ServerState.disconnected (state : ServerState) : ServerState :=
  { state with connected := false, disconnectCount := state.disconnectCount + 1, useRealTransport := false }

def ServerState.nowConnected (state : ServerState) (useReal : Bool) : ServerState :=
  { state with connected := true, connectCount := state.connectCount + 1, useRealTransport := useReal }

structure MCPInvocationResult where
  toolName : String
  serverId : String
  content : Value
  isError : Bool := false

inductive InvocationStage where
  /-- The gate has been asked. -/
  | gating
  /-- The session of the server has been asked. -/
  | calling
  | returned (result : MCPInvocationResult)
  /-- `MCPPolicyDeniedError` -/
  | denied (message : String)
  /-- The `KeyError` of a server that is no longer there. -/
  | serverGone
  | cancelled

/-- A call of `invoke_tool`, with the place of the server's state. -/
structure Invocation where
  serverId : String
  toolName : String
  arguments : Dict Value
  agentId : String
  trustLevel : TrustLevel
  task : Option Task
  server : Nat
  requiresNetwork : Bool
  decision : Option GateDecision := none
  stage : InvocationStage := .gating

/-- `_MinimalTask`, for a call without a task. Its id is the audit id. -/
def minimalTask (auditId serverId toolName : String) : Task :=
  { id := auditId, name := "mcp-invocation", description := s!"MCP tool invocation: {serverId}/{toolName}", agentType := "mcp" }

def Invocation.trustRequest (c : Invocation) : TrustRequest :=
  { agentId := c.agentId, trustLevel := c.trustLevel, action := s!"mcp.tool.{c.toolName}", toolCategory := "mcp"
    requiresNetwork := c.requiresNetwork }

def Invocation.gateCall (c : Invocation) (auditId : String) : GateCall :=
  { c.trustRequest with task := c.task.getD (minimalTask auditId c.serverId c.toolName) }

/-- What the audit callback is given, but for the times. -/
inductive AuditEvent where
  | denied (auditId : Nat) (serverId toolName agentId reason : String)
  | invoked (auditId : Nat) (serverId toolName agentId : String) (isError realTransport : Bool)
  | rawInvocation (serverId toolName : String) (isError : Bool)

def AuditEvent.gated : AuditEvent → Bool
  | rawInvocation _ _ _ => false
  | _ => true

structure MCPClient where
  gate : Option PolicyGate
  hasRealTransport : Bool
  servers : Dict Nat := []
  /-- All states that there ever were. -/
  states : List ServerState := []
  /-- The states whose `aconnect`, or `adisconnect`, awaits the transport. -/
  connecting : List Nat := []
  disconnecting : List Nat := []
  totalInvocations : Nat := 0
  deniedInvocations : Nat := 0
  rawInvocations : Nat := 0
  discoveryCalls : Nat := 0
  calls : List Invocation := []
  audit : List AuditEvent := []

/-- What opening a real transport comes to: it fails, or it is open, and the tools are listed or not. -/
abbrev Opened := Option (Option (List String))

namespace MCPClient

variable (py : PyLib) (s : MCPClient)

/-- `_require_server`: the place and the state. -/
def requireServer (serverId : String) : Except PyError (Nat × ServerState) :=
  match s.servers.get? serverId with
  | some place =>
    match s.states[place]? with
    | some state => .ok (place, state)
    | none => .error (.other "KeyError" serverId)
  | none =>
    .error (.other "MCPServerNotFoundError" s!"Server '{serverId}' is not registered. Call add_server() first.")

def requireConnected (serverId : String) : Except PyError (Nat × ServerState) :=
  match s.requireServer serverId with
  | .error exc => .error exc
  | .ok (place, state) =>
    if !state.connected then
      .error (.other "MCPConnectionError" s!"Server '{serverId}' is not connected. Call connect() first.")
    else .ok (place, state)

/-! ## Servers -/

def addServer (config : MCPServerConfig) : MCPClient :=
  if (s.servers.get? config.serverId).isSome then s
  else { s with servers := s.servers.set config.serverId s.states.length, states := s.states ++ [{ config }] }

def setState (place : Nat) (state : ServerState) : MCPClient := { s with states := s.states.set place state }

def disconnect (serverId : String) : MCPClient :=
  match s.requireServer serverId with
  | .error _ => s
  | .ok (place, state) => if !state.connected then s else s.setState place (state.disconnected)

def removeServer (serverId : String) : MCPClient :=
  match s.requireServer serverId with
  | .error _ => s
  | .ok _ =>
    let s := s.disconnect serverId
    { s with servers := s.servers.pop serverId }

/-- `connect`, which leaves `use_real_transport` as it is. -/
def connect (serverId : String) : MCPClient :=
  match s.requireServer serverId with
  | .error _ => s
  | .ok (place, state) =>
    if state.connected then s else s.setState place (state.nowConnected state.useRealTransport)

def aconnect (serverId : String) : MCPClient :=
  match s.requireServer serverId with
  | .error _ => s
  | .ok (place, state) =>
    if state.connected then s
    else if s.hasRealTransport then { s with connecting := s.connecting ++ [place] }
    else s.setState place (state.nowConnected false)

/-- `_connect_real` comes back to `aconnect`, which does not look again whether the server is connected. -/
def opened (place : Nat) (result : Opened) : MCPClient :=
  if place ∉ s.connecting then s
  else
    match s.states[place]? with
    | none => s
    | some state =>
      let state := match result with
        | none => state.nowConnected false
        | some tools =>
          { state with session := true, tools := tools.getD state.tools }.nowConnected true
      { s.setState place state with connecting := s.connecting.erase place }

def adisconnect (serverId : String) : MCPClient :=
  match s.requireServer serverId with
  | .error _ => s
  | .ok (place, state) =>
    if !state.connected then s
    else if state.session then { s with disconnecting := s.disconnecting ++ [place] }
    else s.setState place (state.disconnected)

def closed (place : Nat) : MCPClient :=
  if place ∉ s.disconnecting then s
  else
    match s.states[place]? with
    | none => s
    | some state =>
      { s.setState place { state with session := false }.disconnected with
        disconnecting := s.disconnecting.erase place }

/-- `discover_tools`, `discover_resources` and `discover_prompts` count alike. -/
def discover (serverId : String) : MCPClient :=
  match s.requireConnected serverId with
  | .error _ => s
  | .ok _ => { s with discoveryCalls := s.discoveryCalls + 1 }

/-! ## Invocations -/

/-- `_simulate_invocation`, which looks the server up again. -/
def simulateInvocation (serverId toolName : String) (arguments : Dict Value) : Option MCPInvocationResult :=
  match s.servers.get? serverId with
  | none => none
  | some place =>
    let knownTools := (s.states[place]?.map (·.tools)).getD []
    if knownTools ≠ [] ∧ toolName ∉ knownTools then
      some { toolName, serverId, isError := true
             content := .dict [("error", .str s!"Tool '{toolName}' not found on server '{serverId}'")] }
    else
      some { toolName, serverId
             content := .dict [("result", .str "ok"), ("tool", .str toolName), ("arguments", .dict arguments),
               ("serverId", .str serverId)] }

def setCall (k : Nat) (c : Invocation) : MCPClient := { s with calls := s.calls.set k c }

def emitAudit (event : AuditEvent) : MCPClient := { s with audit := s.audit ++ [event] }

def realTransport (c : Invocation) : Bool := (s.states[c.server]?.map (·.useRealTransport)).getD false

/-- The invocation has its result. -/
def finish (k : Nat) (c : Invocation) (result : MCPInvocationResult) : MCPClient :=
  (s.setCall k { c with stage := .returned result }).emitAudit
    (.invoked k c.serverId c.toolName c.agentId result.isError (s.realTransport c))

/-- From the gate on. -/
def execute (k : Nat) (c : Invocation) : MCPClient :=
  if s.realTransport c && (s.states[c.server]?.map (·.session)).getD false then s.setCall k { c with stage := .calling }
  else
    match s.simulateInvocation c.serverId c.toolName c.arguments with
    | none => s.setCall k { c with stage := .serverGone }
    | some result => s.finish k c result

def invokeTool (serverId toolName : String) (arguments : Dict Value) (agentId : String) (trustLevel : TrustLevel)
    (task : Option Task) : MCPClient :=
  match s.requireConnected serverId with
  | .error _ => s
  | .ok (server, state) =>
    let requiresNetwork := state.config.transport = .sse ∨ state.config.transport = .http
    let c : Invocation := { serverId, toolName, arguments, agentId, trustLevel, task, server, requiresNetwork }
    let s := { s with totalInvocations := s.totalInvocations + 1, calls := s.calls ++ [c] }
    if s.gate.isSome then s else s.execute (s.calls.length - 1) c

/-- The gate comes to its decision about the invocation. -/
def gateDecides (k : Nat) (auditId : String) (m : GateMoment) : MCPClient :=
  match s.gate, s.calls[k]? with
  | some gate, some c =>
    match c.stage, c.decision with
    | .gating, none =>
      let (decision, gate) := gate.gateAction py none (c.gateCall auditId) m
      { s.setCall k { c with decision := some decision } with gate := some gate }
    | _, _ => s
  | _, _ => s

/-- The invocation goes on from the decision. -/
def resume (k : Nat) : MCPClient :=
  match s.calls[k]? with
  | some c =>
    match c.stage, c.decision with
    | .gating, some decision =>
      if !decision.allowed then
        let message := s!"PolicyGate denied invocation of '{c.toolName}' on server '{c.serverId}': {decision.reason}"
        let s := { s with deniedInvocations := s.deniedInvocations + 1 }
        (s.setCall k { c with stage := .denied message }).emitAudit (.denied k c.serverId c.toolName c.agentId decision.reason)
      else s.execute k c
    | _, _ => s
  | none => s

/-- The session answers, or its call raises. -/
def reply (k : Nat) (content : Value) (isError : Bool) : MCPClient :=
  match s.calls[k]? with
  | some c =>
    match c.stage with
    | .calling => s.finish k c { toolName := c.toolName, serverId := c.serverId, content, isError }
    | _ => s
  | none => s

def cancel (k : Nat) : MCPClient :=
  match s.calls[k]? with
  | some c =>
    match c.stage with
    | .gating => s.setCall k { c with stage := .cancelled }
    | .calling => s.setCall k { c with stage := .cancelled }
    | _ => s
  | none => s

def invokeToolRaw (serverId toolName : String) (arguments : Dict Value) : MCPClient :=
  match s.requireConnected serverId with
  | .error _ => s
  | .ok _ =>
    let s := { s with totalInvocations := s.totalInvocations + 1, rawInvocations := s.rawInvocations + 1 }
    match s.simulateInvocation serverId toolName arguments with
    | none => s
    | some result => s.emitAudit (.rawInvocation serverId toolName result.isError)

end MCPClient

inductive McpEvent where
  | addServer (config : MCPServerConfig)
  | removeServer (serverId : String)
  | connect (serverId : String)
  | disconnect (serverId : String)
  | aconnect (serverId : String)
  | opened (place : Nat) (result : Opened)
  | adisconnect (serverId : String)
  | closed (place : Nat)
  | discover (serverId : String)
  | invokeTool (serverId toolName : String) (arguments : Dict Value) (agentId : String) (trustLevel : TrustLevel)
    (task : Option Task)
  | gateDecides (k : Nat) (auditId : String) (m : GateMoment)
  | resume (k : Nat)
  | reply (k : Nat) (content : Value) (isError : Bool)
  | cancel (k : Nat)
  | invokeToolRaw (serverId toolName : String) (arguments : Dict Value)

def MCPClient.step (py : PyLib) (s : MCPClient) : McpEvent → MCPClient
  | .addServer config => s.addServer config
  | .removeServer serverId => s.removeServer serverId
  | .connect serverId => s.connect serverId
  | .disconnect serverId => s.disconnect serverId
  | .aconnect serverId => s.aconnect serverId
  | .opened place result => s.opened place result
  | .adisconnect serverId => s.adisconnect serverId
  | .closed place => s.closed place
  | .discover serverId => s.discover serverId
  | .invokeTool serverId toolName arguments agentId trustLevel task =>
    s.invokeTool serverId toolName arguments agentId trustLevel task
  | .gateDecides k auditId m => s.gateDecides py k auditId m
  | .resume k => s.resume k
  | .reply k content isError => s.reply k content isError
  | .cancel k => s.cancel k
  | .invokeToolRaw serverId toolName arguments => s.invokeToolRaw serverId toolName arguments

/-! ## What a step changes -/

def McpEvent.onServers : McpEvent → Bool
  | .addServer _ => true
  | .removeServer _ => true
  | .connect _ => true
  | .disconnect _ => true
  | .aconnect _ => true
  | .opened _ _ => true
  | .adisconnect _ => true
  | .closed _ => true
  | .discover _ => true
  | _ => false

namespace MCPClient

variable {py : PyLib} {s s' : MCPClient} {k : Nat} {c c' : Invocation}

/-- `s'` is `s` but for its servers. -/
def Framed (s s' : MCPClient) : Prop :=
  ∃ servers states connecting disconnecting discoveryCalls,
    s' = { s with servers, states, connecting, disconnecting, discoveryCalls }

theorem Framed.refl (s : MCPClient) : Framed s s := ⟨_, _, _, _, _, rfl⟩

theorem framed_disconnect (s : MCPClient) (serverId : String) : Framed s (s.disconnect serverId) := by
  unfold disconnect
  split
  · exact .refl s
  · split
    · exact .refl s
    · exact ⟨_, _, _, _, _, rfl⟩

/-- What is done to servers leaves the invocations, their counts and their audit alone. -/
theorem framed_step {e : McpEvent} (he : e.onServers = true) : Framed s (s.step py e) := by
  cases e with
  | addServer config =>
    simp only [step, addServer]
    split
    · exact .refl s
    · exact ⟨_, _, _, _, _, rfl⟩
  | removeServer serverId =>
    simp only [step, removeServer]
    split
    · exact .refl s
    · obtain ⟨servers, states, connecting, disconnecting, discoveryCalls, heq⟩ := framed_disconnect s serverId
      rw [heq]
      exact ⟨_, _, _, _, _, rfl⟩
  | connect serverId =>
    simp only [step, connect]
    split
    · exact .refl s
    · split
      · exact .refl s
      · exact ⟨_, _, _, _, _, rfl⟩
  | disconnect serverId => exact framed_disconnect s serverId
  | aconnect serverId =>
    simp only [step, aconnect]
    split
    · exact .refl s
    · split
      · exact .refl s
      · split <;> exact ⟨_, _, _, _, _, rfl⟩
  | opened place result =>
    simp only [step, opened]
    split
    · exact .refl s
    · split
      · exact .refl s
      · exact ⟨_, _, _, _, _, rfl⟩
  | adisconnect serverId =>
    simp only [step, adisconnect]
    split
    · exact .refl s
    · split
      · exact .refl s
      · split <;> exact ⟨_, _, _, _, _, rfl⟩
  | closed place =>
    simp only [step, closed]
    split
    · exact .refl s
    · split
      · exact .refl s
      · exact ⟨_, _, _, _, _, rfl⟩
  | discover serverId =>
    simp only [step, discover]
    split
    · exact .refl s
    · exact ⟨_, _, _, _, _, rfl⟩
  | _ => cases he

end MCPClient

/-! ## The audit -/

/-- An audit event of the invocation is due. -/
def Invocation.audited (c : Invocation) : Bool :=
  match c.stage with
  | .returned _ => true
  | .denied _ => true
  | _ => false

def AuditEvent.about (k : Nat) : AuditEvent → Bool
  | denied auditId _ _ _ _ => auditId = k
  | invoked auditId _ _ _ _ _ => auditId = k
  | rawInvocation _ _ _ => false

def AuditEvent.denies : AuditEvent → Bool
  | denied _ _ _ _ _ => true
  | _ => false

namespace MCPClient

/-- The counts are those of the audit, which has one event of each invocation that is due one. -/
structure Ledger (s : MCPClient) : Prop where
  total : s.totalInvocations = s.calls.length + s.rawInvocations
  denied : s.deniedInvocations = s.audit.countP AuditEvent.denies
  raw : s.rawInvocations = s.audit.countP fun e => !e.gated
  length : s.audit.length = s.calls.countP Invocation.audited + s.rawInvocations
  once : ∀ k, s.audit.countP (·.about k) = (s.calls[k]?.map fun c => if c.audited then 1 else 0).getD 0

variable {py : PyLib} {s s' : MCPClient} {k : Nat} {c c' : Invocation}

theorem Ledger.framed (h : Ledger s) (hframed : Framed s s') : Ledger s' := by
  obtain ⟨_, _, _, _, _, rfl⟩ := hframed
  exact ⟨h.total, h.denied, h.raw, h.length, h.once⟩

theorem Ledger.start (h : Ledger s) (hc : c.audited = false) :
    Ledger { s with totalInvocations := s.totalInvocations + 1, calls := s.calls ++ [c] } where
  total := by
    have := h.total
    simp
    omega
  denied := h.denied
  raw := h.raw
  length := by simpa [hc] using h.length
  once := fun k => by
    have hk := h.once k
    rcases Nat.lt_trichotomy k s.calls.length with hlt | rfl | hgt
    · simpa [List.getElem?_append_left hlt] using hk
    · simpa [hc] using hk
    · have hnone : s.calls[k]? = none := List.getElem?_eq_none (by omega)
      have hnone' : (s.calls ++ [c])[k]? = none := List.getElem?_eq_none (by simp; omega)
      simpa [hnone, hnone'] using hk

/-- An invocation moves on, and is due an event if it was. -/
theorem Ledger.setCall (h : Ledger s) (hk : s.calls[k]? = some c) (hc : c'.audited = c.audited) : Ledger (s.setCall k c') where
  total := by simpa [MCPClient.setCall] using h.total
  denied := h.denied
  raw := h.raw
  length := by
    have hcount := countP_set_add Invocation.audited hk (y := c')
    have hlength := h.length
    rw [hc] at hcount
    simp only [MCPClient.setCall]
    omega
  once := fun j => by
    have hj := h.once j
    simp only [MCPClient.setCall]
    by_cases hne : j = k
    · subst hne
      rw [List.getElem?_set_self (List.getElem?_eq_some_iff.mp hk).1]
      simpa [hk, hc] using hj
    · rwa [List.getElem?_set_ne (Ne.symm hne)]

/-- An invocation is over, and its event is emitted. -/
theorem Ledger.settle (h : Ledger s) (hk : s.calls[k]? = some c) (hc : c.audited = false) (hc' : c'.audited = true)
    (event : AuditEvent) (habout : ∀ j, event.about j = decide (k = j)) (hgated : event.gated = true) :
    Ledger (({ s with deniedInvocations := s.deniedInvocations + if event.denies then 1 else 0 }.setCall k c').emitAudit event) where
  total := by simpa [MCPClient.setCall, emitAudit] using h.total
  denied := by
    have := h.denied
    simp [MCPClient.setCall, emitAudit, List.countP_append, List.countP_singleton, h.denied]
  raw := by simpa [MCPClient.setCall, emitAudit, hgated] using h.raw
  length := by
    have hcount := countP_set_add Invocation.audited hk (y := c')
    have hlength := h.length
    rw [hc, hc'] at hcount
    simp [MCPClient.setCall, emitAudit] at hcount ⊢
    omega
  once := fun j => by
    have hj := h.once j
    simp only [MCPClient.setCall, emitAudit, List.countP_append, List.countP_singleton, habout]
    by_cases hne : j = k
    · subst hne
      rw [List.getElem?_set_self (List.getElem?_eq_some_iff.mp hk).1]
      simpa [hk, hc, hc'] using hj
    · rw [List.getElem?_set_ne (Ne.symm hne)]
      simpa [Ne.symm hne] using hj

theorem Ledger.execute (h : Ledger s) (hk : s.calls[k]? = some c) (hc : c.audited = false) : Ledger (s.execute k c) := by
  unfold MCPClient.execute
  split
  · exact h.setCall hk hc.symm
  · split
    · exact h.setCall hk hc.symm
    · exact h.settle hk hc rfl (.invoked k _ _ _ _ _) (fun j => rfl) rfl

theorem Ledger.raw_emitted (h : Ledger s) {event : AuditEvent} (habout : ∀ j, event.about j = false)
    (hgated : event.gated = false) (hdenies : event.denies = false) :
    Ledger ({ s with totalInvocations := s.totalInvocations + 1, rawInvocations := s.rawInvocations + 1 }.emitAudit event) where
  total := by
    have := h.total
    simp only [emitAudit]
    omega
  denied := by simpa [emitAudit, hdenies] using h.denied
  raw := by simpa [emitAudit, hgated] using h.raw
  length := by
    have := h.length
    simp [emitAudit]
    omega
  once := fun j => by simpa [emitAudit, habout] using h.once j

/-- A connected server is found again. -/
theorem simulateInvocation_of_connected {serverId : String} {place : Nat} {state : ServerState}
    (h : s.requireConnected serverId = .ok (place, state)) (toolName : String) (arguments : Dict Value) :
    s.servers.get? serverId = some place ∧ ∃ result, s.simulateInvocation serverId toolName arguments = some result := by
  have hserver : s.servers.get? serverId = some place := by
    unfold requireConnected requireServer at h
    cases hget : s.servers.get? serverId with
    | none => simp [hget] at h
    | some found =>
      cases hstate : s.states[found]? with
      | none => simp [hget, hstate] at h
      | some state' =>
        simp only [hget, hstate] at h
        split at h
        · cases h
        · simp at h
          rw [h.1]
  refine ⟨hserver, ?_⟩
  unfold simulateInvocation
  rw [hserver]
  dsimp only
  split <;> exact ⟨_, rfl⟩

/-! ## What becomes of an invocation -/

theorem execute_cases (s : MCPClient) (k : Nat) (c : Invocation) :
    s.execute k c = s.setCall k { c with stage := .calling } ∨
      (s.execute k c = s.setCall k { c with stage := .serverGone } ∧ s.servers.get? c.serverId = none) ∨
      ∃ result, s.execute k c = s.finish k c result := by
  unfold execute
  split
  · exact .inl rfl
  · cases hsimulate : s.simulateInvocation c.serverId c.toolName c.arguments with
    | none =>
      refine .inr (.inl ⟨rfl, ?_⟩)
      unfold simulateInvocation at hsimulate
      cases hget : s.servers.get? c.serverId with
      | none => rfl
      | some place =>
        rw [hget] at hsimulate
        dsimp only at hsimulate
        split at hsimulate <;> cases hsimulate
    | some result => exact .inr (.inr ⟨result, rfl⟩)

/-- What a step can do to the invocations and to the audit. -/
inductive Moves (py : PyLib) (s : MCPClient) : MCPClient → Prop where
  | framed {s' : MCPClient} (h : Framed s s') : Moves py s s'
  | raw (event : AuditEvent) (hraw : event.gated = false) :
    Moves py s ({ s with totalInvocations := s.totalInvocations + 1, rawInvocations := s.rawInvocations + 1 }.emitAudit event)
  | started (c : Invocation) (hserver : (s.servers.get? c.serverId).isSome = true) (hstage : c.stage = .gating)
    (hdecision : c.decision = none) (hgate : s.gate.isSome = true) :
    Moves py s { s with totalInvocations := s.totalInvocations + 1, calls := s.calls ++ [c] }
  | ungated (c : Invocation) (hserver : (s.servers.get? c.serverId).isSome = true) (hstage : c.stage = .gating)
    (hdecision : c.decision = none) (hgate : s.gate = none) :
    Moves py s ({ s with totalInvocations := s.totalInvocations + 1, calls := s.calls ++ [c] }.execute s.calls.length c)
  | decided (k : Nat) (auditId : String) (m : GateMoment) (gate : PolicyGate) (c : Invocation) (hk : s.calls[k]? = some c)
    (hgate : s.gate = some gate) (hstage : c.stage = .gating) :
    Moves py s { s.setCall k { c with decision := some (gate.gateAction py none (c.gateCall auditId) m).1 } with
      gate := some (gate.gateAction py none (c.gateCall auditId) m).2 }
  | denied (k : Nat) (c : Invocation) (decision : GateDecision) (message : String) (hk : s.calls[k]? = some c)
    (hstage : c.stage = .gating) :
    Moves py s (({ s with deniedInvocations := s.deniedInvocations + 1 }.setCall k { c with stage := .denied message }).emitAudit
      (.denied k c.serverId c.toolName c.agentId decision.reason))
  | allowed (k : Nat) (c : Invocation) (decision : GateDecision) (hk : s.calls[k]? = some c) (hstage : c.stage = .gating)
    (hdecision : c.decision = some decision) (hallowed : decision.allowed = true) : Moves py s (s.execute k c)
  | replied (k : Nat) (c : Invocation) (result : MCPInvocationResult) (hk : s.calls[k]? = some c)
    (hstage : c.stage = .calling) : Moves py s (s.finish k c result)
  | cancelled (k : Nat) (c : Invocation) (hk : s.calls[k]? = some c) (hstage : c.stage = .gating ∨ c.stage = .calling) :
    Moves py s (s.setCall k { c with stage := .cancelled })

theorem moves_step (py : PyLib) (s : MCPClient) (e : McpEvent) : Moves py s (s.step py e) := by
  cases e with
  | invokeTool serverId toolName arguments agentId trustLevel task =>
    simp only [MCPClient.step, invokeTool]
    split
    · exact .framed (.refl s)
    · next server state hconnected =>
      have hserver := (simulateInvocation_of_connected hconnected toolName arguments).1
      by_cases hgate : s.gate.isSome = true
      · rw [if_pos hgate]
        exact .started _ (by rw [hserver, Option.isSome_some]) rfl rfl hgate
      · rw [if_neg hgate]
        have hplace : (s.calls ++ [({ serverId, toolName, arguments, agentId, trustLevel, task, server
                                      requiresNetwork := state.config.transport = .sse ∨ state.config.transport = .http } :
            Invocation)]).length - 1 = s.calls.length := by simp
        rw [hplace]
        exact .ungated _ (by rw [hserver, Option.isSome_some]) rfl rfl (by simpa using hgate)
  | gateDecides k auditId m =>
    simp only [MCPClient.step, gateDecides]
    split
    · next gate c hgate hk =>
      split
      · next hstage hdecision => exact .decided k auditId m gate c hk hgate hstage
      · exact .framed (.refl s)
    · exact .framed (.refl s)
  | resume k =>
    simp only [MCPClient.step, resume]
    split
    · next c hk =>
      split
      · next decision hstage hdecision =>
        by_cases hallowed : decision.allowed = true
        · rw [if_neg (by simp [hallowed])]
          exact .allowed k c decision hk hstage hdecision hallowed
        · rw [if_pos (by simpa using hallowed)]
          exact .denied k c decision _ hk hstage
      · exact .framed (.refl s)
    · exact .framed (.refl s)
  | reply k content isError =>
    simp only [MCPClient.step, reply]
    split
    · next c hk =>
      split
      · next hstage => exact .replied k c _ hk hstage
      · exact .framed (.refl s)
    · exact .framed (.refl s)
  | cancel k =>
    simp only [MCPClient.step, cancel]
    split
    · next c hk =>
      split
      · next hstage => exact .cancelled k c hk (.inl hstage)
      · next hstage => exact .cancelled k c hk (.inr hstage)
      · exact .framed (.refl s)
    · exact .framed (.refl s)
  | invokeToolRaw serverId toolName arguments =>
    simp only [MCPClient.step, invokeToolRaw]
    split
    · exact .framed (.refl s)
    · next place state hconnected =>
      obtain ⟨-, result, hresult⟩ := simulateInvocation_of_connected hconnected toolName arguments
      have hsame : simulateInvocation { s with totalInvocations := s.totalInvocations + 1
                                               rawInvocations := s.rawInvocations + 1 } serverId toolName arguments =
          some result := hresult
      rw [hsame]
      exact .raw _ rfl
  | _ => exact .framed (framed_step rfl)

theorem Ledger.moves (h : Ledger s) (hmoves : Moves py s s') : Ledger s' := by
  have hopen {c : Invocation} (hstage : c.stage = .gating) : c.audited = false := by rw [Invocation.audited, hstage]
  have hcalling {c : Invocation} (hstage : c.stage = .calling) : c.audited = false := by rw [Invocation.audited, hstage]
  cases hmoves with
  | framed hframed => exact h.framed hframed
  | raw event hraw =>
    cases event with
    | rawInvocation serverId toolName isError => exact h.raw_emitted (fun _ => rfl) rfl rfl
    | denied => cases hraw
    | invoked => cases hraw
  | started c hserver hstage hdecision hgate => exact h.start (hopen hstage)
  | ungated c hserver hstage hdecision hgate =>
    exact (h.start (hopen hstage)).execute List.getElem?_concat_length (hopen hstage)
  | decided k auditId m gate c hk hgate hstage =>
    have hset : Ledger (s.setCall k { c with decision := some (gate.gateAction py none (c.gateCall auditId) m).1 }) :=
      h.setCall hk rfl
    exact ⟨hset.total, hset.denied, hset.raw, hset.length, hset.once⟩
  | denied k c decision message hk hstage =>
    exact h.settle hk (hopen hstage) rfl (.denied k _ _ _ _) (fun j => rfl) rfl
  | allowed k c decision hk hstage hdecision hallowed => exact h.execute hk (hopen hstage)
  | replied k c result hk hstage =>
    exact h.settle hk (hcalling hstage) rfl (.invoked k _ _ _ _ _) (fun j => rfl) rfl
  | cancelled k c hk hstage =>
    refine h.setCall hk ?_
    rcases hstage with hstage | hstage
    · exact (hopen hstage).symm
    · exact (hcalling hstage).symm

/-! ## Every tool that runs went through the gate -/

/-- The invocation has reached its server, or would have. -/
def ran (c : Invocation) : Bool :=
  match c.stage with
  | .calling => true
  | .returned _ => true
  | .serverGone => true
  | _ => false

/-- What the gate allowed had passed the trust levels and the policy engine. -/
def Passed (enforcer : TrustEnforcer) (c : Invocation) : Prop :=
  ∀ d, c.decision = some d → d.allowed = true →
    (enforcer.checkAction c.trustRequest).allowed = true ∧ ∃ r, d.gateResult = some r ∧ r.approved = true

/-- The event speaks of an invocation that has its result. -/
def Returned (s : MCPClient) : AuditEvent → Prop
  | .invoked k serverId toolName agentId _ _ => ∃ c result, s.calls[k]? = some c ∧ c.stage = .returned result ∧
      c.serverId = serverId ∧ c.toolName = toolName ∧ c.agentId = agentId
  | _ => True

structure Mediated (enforcer : TrustEnforcer) (s : MCPClient) : Prop where
  gate : ∃ g, s.gate = some g ∧ g.trustEnforcer = enforcer
  passed : ∀ c ∈ s.calls, Passed enforcer c
  ran : ∀ c ∈ s.calls, ran c = true → ∃ d, c.decision = some d ∧ d.allowed = true
  audit : ∀ event ∈ s.audit, Returned s event

variable {enforcer : TrustEnforcer}

/-- Without a token, what the gate allows passed both checks. -/
theorem gateAction_spec (py : PyLib) (gate : PolicyGate) (call : GateCall) (m : GateMoment) :
    (gate.gateAction py none call m).2.trustEnforcer = gate.trustEnforcer ∧
      ((gate.gateAction py none call m).1.allowed = true →
        (gate.trustEnforcer.checkAction call.toTrustRequest).allowed = true ∧
          ∃ r, (gate.gateAction py none call m).1.gateResult = some r ∧ r.approved = true) := by
  have htrust : ({ gate with evaluationCount := gate.evaluationCount + 1 } : PolicyGate).trustCheck call =
      gate.trustEnforcer.checkAction call.toTrustRequest := rfl
  unfold PolicyGate.gateAction overrides
  dsimp only
  rw [htrust]
  by_cases hallowed : (gate.trustEnforcer.checkAction call.toTrustRequest).allowed = true
  · rw [if_neg (by simp [hallowed])]
    cases hresult : ({ gate with evaluationCount := gate.evaluationCount + 1 } : PolicyGate).evaluate py call m with
    | error exc => exact ⟨rfl, fun h => absurd h Bool.false_ne_true⟩
    | ok answer =>
      obtain ⟨result, engine⟩ := answer
      dsimp only
      by_cases happroved : result.approved = true
      · rw [if_neg (by simp [happroved])]
        exact ⟨rfl, fun _ => ⟨hallowed, result, rfl, happroved⟩⟩
      · rw [if_pos (by simpa using happroved)]
        exact ⟨rfl, fun h => absurd h Bool.false_ne_true⟩
  · rw [if_pos (by simpa using hallowed)]
    exact ⟨rfl, fun h => absurd h Bool.false_ne_true⟩

theorem Returned.set {event : AuditEvent} (h : Returned s event) (hk : s.calls[k]? = some c)
    (hopen : ∀ result, c.stage ≠ .returned result) (hcalls : s'.calls = s.calls.set k c') : Returned s' event := by
  cases event with
  | invoked j serverId toolName agentId isError realTransport =>
    obtain ⟨d, result, hj, hstage, hsame⟩ := h
    refine ⟨d, result, ?_, hstage, hsame⟩
    rw [hcalls, List.getElem?_set_ne, hj]
    rintro rfl
    obtain rfl : c = d := Option.some.inj (hk.symm.trans hj)
    exact hopen result hstage
  | denied => trivial
  | rawInvocation => trivial

/-- One invocation moves on, and perhaps its event is emitted. -/
theorem Mediated.set (h : Mediated enforcer s) (hk : s.calls[k]? = some c) (hopen : ∀ result, c.stage ≠ .returned result)
    (hcalls : s'.calls = s.calls.set k c') (hgate : ∃ g, s'.gate = some g ∧ g.trustEnforcer = enforcer)
    (hpassed : Passed enforcer c') (hran : MCPClient.ran c' = true → ∃ d, c'.decision = some d ∧ d.allowed = true)
    (haudit : ∀ event ∈ s'.audit, event ∈ s.audit ∨ Returned s' event) : Mediated enforcer s' where
  gate := hgate
  passed := by
    rw [hcalls]
    intro d hd
    rcases List.mem_or_eq_of_mem_set hd with hd | rfl
    · exact h.passed d hd
    · exact hpassed
  ran := by
    rw [hcalls]
    intro d hd
    rcases List.mem_or_eq_of_mem_set hd with hd | rfl
    · exact h.ran d hd
    · exact hran
  audit := fun event hevent => by
    rcases haudit event hevent with hold | hnew
    · exact (h.audit event hold).set hk hopen hcalls
    · exact hnew

theorem Mediated.finish (h : Mediated enforcer s) (hk : s.calls[k]? = some c) (hopen : ∀ result, c.stage ≠ .returned result)
    (hallowed : ∃ d, c.decision = some d ∧ d.allowed = true) (result : MCPInvocationResult) :
    Mediated enforcer (s.finish k c result) := by
  have hcalls : (s.finish k c result).calls = s.calls.set k { c with stage := .returned result } := rfl
  refine h.set hk hopen hcalls h.gate (h.passed c (List.mem_of_getElem? hk)) (fun _ => hallowed) fun event hevent => ?_
  rcases List.mem_append.mp hevent with hold | hnew
  · exact .inl hold
  · rw [List.mem_singleton.mp hnew]
    exact .inr ⟨_, result, List.getElem?_set_self (List.getElem?_eq_some_iff.mp hk).1, rfl, rfl, rfl, rfl⟩

theorem Mediated.moves (h : Mediated enforcer s) (hmoves : Moves py s s') : Mediated enforcer s' := by
  cases hmoves with
  | framed hframed =>
    obtain ⟨_, _, _, _, _, rfl⟩ := hframed
    exact ⟨h.gate, h.passed, h.ran, fun event he => by
      have := h.audit event he
      cases event <;> exact this⟩
  | raw event hraw =>
    refine ⟨h.gate, h.passed, h.ran, fun event' hevent => ?_⟩
    rcases List.mem_append.mp hevent with hold | hnew
    · have := h.audit event' hold
      cases event' <;> exact this
    · rw [List.mem_singleton.mp hnew]
      cases event with
      | invoked => cases hraw
      | denied => trivial
      | rawInvocation => trivial
  | started c hserver hstage hdecision hgate =>
    refine ⟨h.gate, fun d hd => ?_, fun d hd => ?_, fun event hevent => ?_⟩
    · rcases List.mem_append.mp hd with hd | hd
      · exact h.passed d hd
      · rw [List.mem_singleton.mp hd]
        intro decision hsome
        rw [hdecision] at hsome
        cases hsome
    · rcases List.mem_append.mp hd with hd | hd
      · exact h.ran d hd
      · rw [List.mem_singleton.mp hd, MCPClient.ran, hstage]
        exact fun h => absurd h Bool.false_ne_true
    · have := h.audit event hevent
      cases event with
      | invoked =>
        obtain ⟨d, result, hj, hrest⟩ := this
        exact ⟨d, result, getElem?_concat_of_some hj, hrest⟩
      | denied => trivial
      | rawInvocation => trivial
  | ungated c hserver hstage hdecision hgate =>
    obtain ⟨g, hg, -⟩ := h.gate
    rw [hgate] at hg
    cases hg
  | decided k auditId m gate c hk hgate hstage =>
    obtain ⟨g, hg, henforcer⟩ := h.gate
    obtain rfl : gate = g := Option.some.inj (hgate.symm.trans hg)
    obtain ⟨hsame, hspec⟩ := gateAction_spec py gate (c.gateCall auditId) m
    refine h.set hk (by simp [hstage]) rfl ⟨_, rfl, hsame.trans henforcer⟩ ?_ ?_ fun event hevent => .inl hevent
    · intro d hd hallowed
      obtain rfl := Option.some.inj hd
      rw [← henforcer]
      exact hspec hallowed
    · simp [MCPClient.ran, hstage]
  | denied k c decision message hk hstage =>
    refine h.set hk (by simp [hstage]) rfl h.gate (h.passed c (List.mem_of_getElem? hk)) ?_ fun event hevent => ?_
    · exact fun h => absurd h Bool.false_ne_true
    · rcases List.mem_append.mp hevent with hold | hnew
      · exact .inl hold
      · rw [List.mem_singleton.mp hnew]
        exact .inr trivial
  | allowed k c decision hk hstage hdecision hallowed =>
    have hpassed := h.passed c (List.mem_of_getElem? hk)
    have hopen (result : MCPInvocationResult) : c.stage ≠ .returned result := by simp [hstage]
    rcases execute_cases s k c with heq | ⟨heq, -⟩ | ⟨result, heq⟩
    · rw [heq]
      exact h.set hk hopen rfl h.gate hpassed (fun _ => ⟨decision, hdecision, hallowed⟩) fun event hevent => .inl hevent
    · rw [heq]
      exact h.set hk hopen rfl h.gate hpassed (fun _ => ⟨decision, hdecision, hallowed⟩) fun event hevent => .inl hevent
    · rw [heq]
      exact h.finish hk hopen ⟨decision, hdecision, hallowed⟩ result
  | replied k c result hk hstage =>
    refine h.finish hk (by simp [hstage]) (h.ran c (List.mem_of_getElem? hk) ?_) result
    rw [MCPClient.ran, hstage]
  | cancelled k c hk hstage =>
    refine h.set hk ?_ rfl h.gate (h.passed c (List.mem_of_getElem? hk)) ?_ fun event hevent => .inl hevent
    · rcases hstage with hstage | hstage <;> simp [hstage]
    · exact fun h => absurd h Bool.false_ne_true

/-! ## No invocation loses its server, unless it is removed -/

theorem servers_execute (s : MCPClient) (k : Nat) (c : Invocation) : (s.execute k c).servers = s.servers := by
  rcases execute_cases s k c with heq | ⟨heq, -⟩ | ⟨result, heq⟩ <;> rw [heq] <;> rfl

theorem servers_disconnect (s : MCPClient) (serverId : String) : (s.disconnect serverId).servers = s.servers := by
  unfold disconnect
  split
  · rfl
  · split <;> rfl

/-- A server stays registered until it is removed. -/
theorem registered_step {id : String} (h : (s.servers.get? id).isSome = true) {e : McpEvent} (he : e ≠ .removeServer id) :
    ((s.step py e).servers.get? id).isSome = true := by
  have hsame (hservers : (s.step py e).servers = s.servers) : ((s.step py e).servers.get? id).isSome = true := by
    rwa [hservers]
  cases e with
  | addServer config =>
    simp only [step, addServer]
    split
    · exact h
    · rw [Dict.get?_set]
      split
      · rfl
      · exact h
  | removeServer serverId =>
    simp only [step, removeServer]
    split
    · exact h
    · have hne : id ≠ serverId := fun heq => he (by rw [heq])
      rw [servers_disconnect, Dict.get?_pop, if_neg hne]
      exact h
  | connect serverId => exact hsame (by simp only [step, connect]; (repeat' split) <;> rfl)
  | disconnect serverId => exact hsame (servers_disconnect s serverId)
  | aconnect serverId => exact hsame (by simp only [step, aconnect]; (repeat' split) <;> rfl)
  | opened place result => exact hsame (by simp only [step, opened]; (repeat' split) <;> rfl)
  | adisconnect serverId => exact hsame (by simp only [step, adisconnect]; (repeat' split) <;> rfl)
  | closed place => exact hsame (by simp only [step, closed]; (repeat' split) <;> rfl)
  | discover serverId => exact hsame (by simp only [step, discover]; split <;> rfl)
  | invokeTool serverId toolName arguments agentId trustLevel task =>
    refine hsame ?_
    simp only [step, invokeTool]
    split
    · rfl
    · split
      · rfl
      · exact servers_execute _ _ _
  | gateDecides k auditId m => exact hsame (by simp only [step, gateDecides]; (repeat' split) <;> rfl)
  | resume k =>
    refine hsame ?_
    simp only [step, resume]
    split
    · split
      · split
        · rfl
        · exact servers_execute _ _ _
      · rfl
    · rfl
  | reply k content isError => exact hsame (by simp only [step, reply]; (repeat' split) <;> rfl)
  | cancel k => exact hsame (by simp only [step, cancel]; (repeat' split) <;> rfl)
  | invokeToolRaw serverId toolName arguments =>
    exact hsame (by simp only [step, invokeToolRaw]; (repeat' split) <;> rfl)

/-- The invocations of the server have it, and none has lost it. -/
def Keeps (id : String) (s : MCPClient) : Prop :=
  ∀ c ∈ s.calls, c.serverId = id → c.stage ≠ .serverGone ∧ (s.servers.get? id).isSome = true

/-- The invocations of a step are those of before, moved on, and perhaps a new one. Only one whose
server is gone ends for that. -/
theorem Moves.mem_calls (h : Moves py s s') {d : Invocation} (hd : d ∈ s'.calls) :
    (∃ c ∈ s.calls, c.serverId = d.serverId ∧ (d.stage = .serverGone → c.stage = .serverGone ∨ s.servers.get? c.serverId = none)) ∨
      ((s.servers.get? d.serverId).isSome = true ∧ d.stage ≠ .serverGone) := by
  have hset {k : Nat} {c c' : Invocation} (hk : s.calls[k]? = some c) (hd : d ∈ s.calls.set k c')
      (hserver : c'.serverId = c.serverId)
      (hgone : c'.stage = .serverGone → c.stage = .serverGone ∨ s.servers.get? c.serverId = none) :
      ∃ c ∈ s.calls, c.serverId = d.serverId ∧
        (d.stage = .serverGone → c.stage = .serverGone ∨ s.servers.get? c.serverId = none) := by
    rcases List.mem_or_eq_of_mem_set hd with hd | rfl
    · exact ⟨d, hd, rfl, .inl⟩
    · exact ⟨c, List.mem_of_getElem? hk, hserver.symm, hgone⟩
  have hnew {c c' : Invocation} (hd : d ∈ (s.calls ++ [c]).set s.calls.length c') (hserver : c'.serverId = c.serverId)
      (hregistered : (s.servers.get? c.serverId).isSome = true) (hstage : c'.stage ≠ .serverGone) :
      d ∈ s.calls ∨ ((s.servers.get? d.serverId).isSome = true ∧ d.stage ≠ .serverGone) := by
    rw [List.set_append_right _ _ le_rfl, Nat.sub_self, List.set_cons_zero] at hd
    rcases List.mem_append.mp hd with hd | hd
    · exact .inl hd
    · obtain rfl := List.mem_singleton.mp hd
      exact .inr ⟨by rwa [hserver], hstage⟩
  have hold (hd : d ∈ s.calls) := (⟨d, hd, rfl, .inl⟩ : ∃ c ∈ s.calls, c.serverId = d.serverId ∧
    (d.stage = .serverGone → c.stage = .serverGone ∨ s.servers.get? c.serverId = none))
  cases h with
  | framed hframed =>
    obtain ⟨_, _, _, _, _, rfl⟩ := hframed
    exact .inl (hold hd)
  | raw event hraw => exact .inl (hold hd)
  | started c hserver hstage hdecision hgate =>
    rcases List.mem_append.mp hd with hd | hd
    · exact .inl (hold hd)
    · obtain rfl := List.mem_singleton.mp hd
      exact .inr ⟨hserver, by simp [hstage]⟩
  | ungated c hserver hstage hdecision hgate =>
    rcases execute_cases { s with totalInvocations := s.totalInvocations + 1, calls := s.calls ++ [c] } s.calls.length c with
      heq | ⟨heq, hnone⟩ | ⟨result, heq⟩
    · rw [heq] at hd
      exact (hnew hd rfl hserver nofun).imp hold id
    · rw [show s.servers.get? c.serverId = none from hnone] at hserver
      cases hserver
    · rw [heq] at hd
      exact (hnew hd rfl hserver nofun).imp hold id
  | decided k auditId m gate c hk hgate hstage => exact .inl (hset hk hd rfl .inl)
  | denied k c decision message hk hstage => exact .inl (hset hk hd rfl nofun)
  | allowed k c decision hk hstage hdecision hallowed =>
    rcases execute_cases s k c with heq | ⟨heq, hnone⟩ | ⟨result, heq⟩
    · rw [heq] at hd
      exact .inl (hset hk hd rfl nofun)
    · rw [heq] at hd
      exact .inl (hset hk hd rfl fun _ => .inr hnone)
    · rw [heq] at hd
      exact .inl (hset hk hd rfl nofun)
  | replied k c result hk hstage => exact .inl (hset hk hd rfl nofun)
  | cancelled k c hk hstage => exact .inl (hset hk hd rfl nofun)

theorem Keeps.step {id : String} (h : Keeps id s) {e : McpEvent} (he : e ≠ .removeServer id) : Keeps id (s.step py e) := by
  intro d hd hid
  rcases (moves_step py s e).mem_calls hd with ⟨c, hc, hserver, hgone⟩ | ⟨hregistered, hstage⟩
  · obtain ⟨hstage, hregistered⟩ := h c hc (hserver.trans hid)
    refine ⟨fun hlost => ?_, registered_step hregistered he⟩
    rcases hgone hlost with hold | hnone
    · exact hstage hold
    · rw [hserver, hid] at hnone
      rw [hnone] at hregistered
      cases hregistered
  · rw [hid] at hregistered
    exact ⟨hstage, registered_step hregistered he⟩

/-! ## Runs -/

/-- The invocation is under way. -/
def inFlight (c : Invocation) : Bool :=
  match c.stage with
  | .gating => true
  | .calling => true
  | _ => false

/-- The invocation has raised what no audit event tells, or was cancelled. -/
def lost (c : Invocation) : Bool :=
  match c.stage with
  | .serverGone => true
  | .cancelled => true
  | _ => false

theorem countP_stages (calls : List Invocation) :
    calls.length = calls.countP Invocation.audited + calls.countP inFlight + calls.countP lost := by
  induction calls with
  | nil => rfl
  | cons c calls ih =>
    have hone : (if c.audited then 1 else 0) + (if inFlight c then 1 else 0) + (if lost c then 1 else 0) = 1 := by
      unfold Invocation.audited inFlight lost
      cases c.stage <;> rfl
    rw [List.length_cons, List.countP_cons, List.countP_cons, List.countP_cons]
    omega

/-- What the counts and the audit say of the run. -/
structure Accounted (events : List McpEvent) (s : MCPClient) : Prop where
  total : s.totalInvocations = s.audit.length + s.calls.countP inFlight + s.calls.countP lost
  denied : s.deniedInvocations = s.audit.countP AuditEvent.denies
  raw : s.rawInvocations = s.audit.countP fun e => !e.gated
  once : ∀ k c, s.calls[k]? = some c → s.audit.countP (·.about k) = if c.audited then 1 else 0
  gone : ∀ c ∈ s.calls, c.stage = .serverGone → .removeServer c.serverId ∈ events

/-- **Each invocation is audited once.** However invocations interleave with what is done to servers, an
invocation that was denied or has a result has one audit event and no other has any, the counts are those
of the audit, and an invocation goes unaudited only if it is under way, was cancelled, or lost its
server to a removal. -/
theorem invocations_accounted (gate : Option PolicyGate) (hasRealTransport : Bool) (events : List McpEvent) :
    Accounted events (run (step py) { gate, hasRealTransport } events) := by
  have hledger : Ledger (run (step py) { gate, hasRealTransport } events) :=
    run_invariant Ledger (fun s e h => h.moves (moves_step py s e)) ⟨rfl, rfl, rfl, rfl, fun _ => rfl⟩ events
  refine ⟨?_, hledger.denied, hledger.raw, fun k c hk => ?_, fun c hc hgone => ?_⟩
  · have hstages := countP_stages (run (step py) { gate, hasRealTransport } events).calls
    have hlength := hledger.length
    have htotal := hledger.total
    omega
  · rw [hledger.once k, hk]
    rfl
  · by_contra hnever
    have hkept : Admitted (step py) (fun _ e => e ≠ .removeServer c.serverId) { gate, hasRealTransport } events :=
      Lib.admitted_iff_forall.mpr fun before e after hsplit heq => hnever (by rw [hsplit, ← heq]; simp)
    exact (hkept.invariant (Keeps c.serverId) (List.forall_mem_nil _) (fun s e h he => h.step he) c hc rfl).1 hgone

/-- What the gate grants an invocation whose tool has run. -/
structure Granted (enforcer : TrustEnforcer) (s : MCPClient) (k : Nat) (serverId toolName agentId : String) : Prop where
  granted : ∃ c, s.calls[k]? = some c ∧ c.serverId = serverId ∧ c.toolName = toolName ∧ c.agentId = agentId ∧
    (∃ constraint, enforcer.constraints.lookup c.trustLevel = some constraint ∧ "mcp" ∈ constraint.maxToolCategories ∧
      (c.requiresNetwork = true → constraint.canAccessNetwork = true)) ∧
    ∃ d r, c.decision = some d ∧ d.allowed = true ∧ d.gateResult = some r ∧ r.approved = true

/-- Every result that the audit tells of was granted. -/
def AllGranted (enforcer : TrustEnforcer) (s : MCPClient) : Prop :=
  ∀ event ∈ s.audit, match event with
    | .invoked k serverId toolName agentId _ _ => Granted enforcer s k serverId toolName agentId
    | _ => True

theorem Mediated.grants {s : MCPClient} (h : Mediated enforcer s) {c : Invocation} (hc : c ∈ s.calls)
    (hran : MCPClient.ran c = true) :
    (∃ constraint, enforcer.constraints.lookup c.trustLevel = some constraint ∧ "mcp" ∈ constraint.maxToolCategories ∧
      (c.requiresNetwork = true → constraint.canAccessNetwork = true)) ∧
    ∃ d r, c.decision = some d ∧ d.allowed = true ∧ d.gateResult = some r ∧ r.approved = true := by
  obtain ⟨d, hd, hallowed⟩ := h.ran c hc hran
  obtain ⟨htrust, r, hr, happroved⟩ := h.passed c hc d hd hallowed
  obtain ⟨constraint, hlookup, hgrants⟩ := enforcer.checkAction_allowed_iff c.trustRequest |>.mp htrust
  exact ⟨⟨constraint, hlookup, hgrants.toolCategory (by simp [Invocation.trustRequest]), hgrants.network⟩, d, r, hd, hallowed, hr, happroved⟩

/-- No constraint of the table has the category. -/
theorem mcp_notMem_trustConstraints : ∀ entry ∈ trustConstraints, "mcp" ∉ entry.2.maxToolCategories := by decide

/-- **The shipped table grants no tool.** Behind a gate with the default trust levels, no invocation ever
reaches its server, whatever its level and the policies: the category `mcp` is in no constraint. -/
theorem default_table_runs_nothing (gate : PolicyGate) (hdefault : gate.trustEnforcer = {}) (hasRealTransport : Bool)
    (events : List McpEvent) :
    ∀ c ∈ (run (step py) { gate := some gate, hasRealTransport } events).calls, ran c = false := by
  have hmediated : Mediated gate.trustEnforcer (run (step py) { gate := some gate, hasRealTransport } events) :=
    run_invariant (Mediated gate.trustEnforcer) (fun s e h => h.moves (moves_step py s e))
      ⟨⟨gate, rfl, rfl⟩, List.forall_mem_nil _, List.forall_mem_nil _, List.forall_mem_nil _⟩ events
  intro c hc
  by_contra hran
  obtain ⟨⟨constraint, hlookup, hcategory, -⟩, -⟩ := hmediated.grants hc (by simpa using hran)
  rw [hdefault] at hlookup
  obtain ⟨before, after, hsplit, -⟩ := List.lookup_eq_some_iff.mp hlookup
  have htable : (c.trustLevel, constraint) ∈ trustConstraints := by
    rw [show trustConstraints = before ++ (c.trustLevel, constraint) :: after from hsplit]
    simp
  exact mcp_notMem_trustConstraints _ htable hcategory

/-- An orchestrator asks for a tool of a local server. -/
def orchestratorAsks : List McpEvent :=
  [.addServer { serverId := "fs", name := "Filesystem" }, .connect "fs",
    .invokeTool "fs" "read_file" [] "agent-1" .l5Orchestrator none,
    .gateDecides 0 "id" { now := 0, timeOfDay := 0, entryId := "e", timestamp := "t" }, .resume 0]

theorem default_table_denies_orchestrator :
    (run (step plainLib) { gate := some {}, hasRealTransport := false } orchestratorAsks).calls.any ran = false := by
  rw [List.any_eq_false]
  intro c hc
  rw [default_table_runs_nothing {} rfl false orchestratorAsks c hc]
  exact Bool.false_ne_true

end MCPClient

end Occp.Adapters
