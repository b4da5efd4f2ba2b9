import Mathlib.Data.Rat.Defs
import Occp.Evaluation.KillSwitch
import Occp.Json

/-!
# The MCP bridge (`adapters/mcp_bridge.py`)

A call goes through the kill switch, the tool guard and the sanitiser to its implementation. A dispatch keeps a trace
of what it asked and what it ran.
-/

namespace Occp.Adapters

open Evaluation

structure ToolCall where
  tool : String
  params : Dict Value := []
  agentId : String := "brain"
  correlationId : String
  timeoutSeconds : Rat := 30

inductive ToolStatus where
  | ok
  | error
  | denied
  | timeout
  deriving DecidableEq

/-- What the result takes from the clocks. -/
structure ToolClock where
  durationMs : Rat
  timestamp : String

structure ToolResult where
  callId : String
  tool : String
  status : ToolStatus
  result : Value := .none
  error : Option String := none
  clock : ToolClock

/-- What the dispatch reads of the guard's answer, and of the sanitiser's. -/
structure ToolAccessResult where
  allowed : Bool
  reason : String := ""

structure MCPBridge.SanitizationResult where
  safe : Bool
  threatsDetected : List String := []

/-- How an implementation ends. -/
inductive ToolOutcome where
  | returned (result : Value)
  | timedOut
  | raised (exc : PyError)

structure BridgeStats where
  total : Nat := 0
  ok : Nat := 0
  error : Nat := 0
  denied : Nat := 0
  timeout : Nat := 0

/-- The guard and the sanitiser may raise. -/
structure MCPBridge where
  tools : Dict (Dict Value → ToolOutcome) := []
  agentToolGuard : Option (String → String → Except PyError ToolAccessResult) := none
  inputSanitizer : Option (String → String → Except PyError MCPBridge.SanitizationResult) := none
  stats : BridgeStats := {}

/-- What Python makes of a float, and whether a value nests too deeply for `json.dumps`. -/
structure BridgeLib where
  floatText : Rat → String
  tooDeep : Value → Bool

inductive BridgeEvent where
  | guardAsked (agentId tool : String)
  | sanitized (text channel : String)
  | ran (tool : String) (params : Dict Value)

variable (lib : BridgeLib)

/-- `json.dumps(params, default=str)`. -/
def BridgeLib.dumps (v : Value) : Except PyError (List Char) :=
  if lib.tooDeep v then .error (.other "RecursionError" "maximum recursion depth exceeded") else .ok (Json.dumps lib.floatText v)

/-- How much of the parameters the sanitiser sees. -/
def sanitizedLength : Nat := 4000

namespace MCPBridge

def register (bridge : MCPBridge) (toolName : String) (implementation : Dict Value → ToolOutcome) : Except PyError MCPBridge :=
  if '.' ∉ toolName.toList then .error (.valueError s!"Tool name must be 'namespace.method', got {reprString toolName}")
  else .ok { bridge with tools := bridge.tools.set toolName implementation }

variable (bridge : MCPBridge) (call : ToolCall)

/-- Step 2: what is asked, and the reason of a denial. A guard that raises is logged. -/
def guardCheck : List BridgeEvent × Option String :=
  match bridge.agentToolGuard with
  | none => ([], none)
  | some guard =>
    ([.guardAsked call.agentId call.tool],
      match guard call.agentId call.tool with
      | .ok check => if !check.allowed then some check.reason else none
      | .error _ => none)

/-- Step 3, of the first characters of the parameters' JSON. What raises is logged. -/
def sanitizerCheck : List BridgeEvent × Option String :=
  match bridge.inputSanitizer with
  | none => ([], none)
  | some sanitize =>
    match lib.dumps (.dict call.params) with
    | .error _ => ([], none)
    | .ok json =>
      let serialized := String.ofList (json.take sanitizedLength)
      ([.sanitized serialized "mcp-bridge"],
        match sanitize serialized "mcp-bridge" with
        | .ok san => if !san.safe then some s!"Input blocked: {reprStrings san.threatsDetected}" else none
        | .error _ => none)

/-- Step 4. -/
def execute (implementation : Dict Value → ToolOutcome) (clock : ToolClock) : ToolResult × BridgeStats :=
  let answer (status : ToolStatus) : ToolResult := { callId := call.correlationId, tool := call.tool, status, clock }
  let stats := bridge.stats
  match implementation call.params with
  | .returned result => ({ answer .ok with result }, { stats with ok := stats.ok + 1 })
  | .timedOut =>
    let seconds := lib.floatText call.timeoutSeconds
    ({ answer .timeout with error := some s!"Timeout after {seconds}s" }, { stats with timeout := stats.timeout + 1 })
  | .raised exc =>
    ({ answer .error with error := some (String.ofList (exc.str.toList.take 500)) }, { stats with error := stats.error + 1 })

/-- `killSwitch` is the process-wide switch, if its module could be imported. -/
def dispatch (killSwitch : Option KillSwitch) (clock : ToolClock) : Except PyError ToolResult × MCPBridge × List BridgeEvent :=
  match (match killSwitch with | some k => k.requireInactive | none => .ok ()) with
  | .error exc => (.error exc, bridge, [])
  | .ok () =>
    let answer (status : ToolStatus) (error : String) : ToolResult :=
      { callId := call.correlationId, tool := call.tool, status, error := some error, clock }
    let bridge := { bridge with stats := { bridge.stats with total := bridge.stats.total + 1 } }
    match bridge.tools.get? call.tool with
    | none =>
      (.ok (answer .error s!"Unknown tool: {call.tool}"),
        { bridge with stats := { bridge.stats with error := bridge.stats.error + 1 } }, [])
    | some implementation =>
      let denied := { bridge with stats := { bridge.stats with denied := bridge.stats.denied + 1 } }
      let (asked, refusal) := bridge.guardCheck call
      match refusal with
      | some reason => (.ok (answer .denied reason), denied, asked)
      | none =>
        let (scanned, threat) := bridge.sanitizerCheck lib call
        match threat with
        | some reason => (.ok (answer .denied reason), denied, asked ++ scanned)
        | none =>
          let (result, stats) := bridge.execute lib call implementation clock
          (.ok result, { bridge with stats }, asked ++ scanned ++ [.ran call.tool call.params])

/-! ## What stands before an implementation -/

variable {lib bridge call}

/-- The guard was asked about the agent and the tool, and did not deny. -/
def GuardPassed (bridge : MCPBridge) (call : ToolCall) (trace : List BridgeEvent) : Prop :=
  ∀ guard, bridge.agentToolGuard = some guard → .guardAsked call.agentId call.tool ∈ trace ∧
    ∀ check, guard call.agentId call.tool = .ok check → check.allowed = true

/-- The sanitiser was given the beginning of the parameters' JSON, and did not find it unsafe. -/
def SanitizerPassed (lib : BridgeLib) (bridge : MCPBridge) (call : ToolCall) (trace : List BridgeEvent) : Prop :=
  ∀ sanitize json, bridge.inputSanitizer = some sanitize → lib.dumps (.dict call.params) = .ok json →
    .sanitized (String.ofList (json.take sanitizedLength)) "mcp-bridge" ∈ trace ∧
      ∀ san, sanitize (String.ofList (json.take sanitizedLength)) "mcp-bridge" = .ok san → san.safe = true

theorem guardPassed_of_none {asked : List BridgeEvent} (h : bridge.guardCheck call = (asked, none)) :
    GuardPassed bridge call asked := by
  intro guard hguard
  unfold guardCheck at h
  rw [hguard] at h
  simp only [Prod.mk.injEq] at h
  obtain ⟨rfl, hanswer⟩ := h
  refine ⟨by simp, fun check hcheck => ?_⟩
  rw [hcheck] at hanswer
  simpa using hanswer

theorem sanitizerPassed_of_none {scanned : List BridgeEvent} (h : bridge.sanitizerCheck lib call = (scanned, none)) :
    SanitizerPassed lib bridge call scanned := by
  intro sanitize json hsanitize hjson
  unfold sanitizerCheck at h
  rw [hsanitize] at h
  simp only [hjson, Prod.mk.injEq] at h
  obtain ⟨rfl, hanswer⟩ := h
  refine ⟨by simp, fun san hsan => ?_⟩
  rw [hsan] at hanswer
  simpa using hanswer

theorem guardCheck_stats (stats : BridgeStats) : { bridge with stats }.guardCheck call = bridge.guardCheck call := rfl

theorem sanitizerCheck_stats (stats : BridgeStats) :
    { bridge with stats }.sanitizerCheck lib call = bridge.sanitizerCheck lib call := rfl

variable (bridge call) in
theorem ran_notMem_guardCheck (tool : String) (params : Dict Value) : .ran tool params ∉ (bridge.guardCheck call).1 := by
  unfold guardCheck
  split <;> simp

variable (lib bridge call) in
theorem ran_notMem_sanitizerCheck (tool : String) (params : Dict Value) :
    .ran tool params ∉ (bridge.sanitizerCheck lib call).1 := by
  unfold sanitizerCheck
  split
  · simp
  · split <;> simp

/-- A dispatch that runs an implementation has come through every check before it. -/
theorem dispatch_of_ran {killSwitch : Option KillSwitch} {clock : ToolClock} {tool : String} {params : Dict Value}
    (h : .ran tool params ∈ (bridge.dispatch lib call killSwitch clock).2.2) :
    tool = call.tool ∧ params = call.params ∧
      (∀ k, killSwitch = some k → k.requireInactive = .ok ()) ∧
      (∃ implementation, bridge.tools.get? call.tool = some implementation) ∧
      ∃ asked scanned, bridge.guardCheck call = (asked, none) ∧ bridge.sanitizerCheck lib call = (scanned, none) ∧
        (bridge.dispatch lib call killSwitch clock).2.2 = asked ++ scanned ++ [.ran call.tool call.params] := by
  have hnot := ran_notMem_guardCheck bridge call tool params
  have hnot' := ran_notMem_sanitizerCheck lib bridge call tool params
  unfold dispatch at h ⊢
  dsimp only at h ⊢
  rw [guardCheck_stats { bridge.stats with total := bridge.stats.total + 1 },
    sanitizerCheck_stats { bridge.stats with total := bridge.stats.total + 1 }] at h ⊢
  generalize bridge.guardCheck call = guardAnswer at h hnot ⊢
  generalize bridge.sanitizerCheck lib call = sanitizerAnswer at h hnot' ⊢
  obtain ⟨asked, refusal⟩ := guardAnswer
  obtain ⟨scanned, threat⟩ := sanitizerAnswer
  split at h
  · simp at h
  · next hinactive =>
    have hswitch : ∀ k, killSwitch = some k → k.requireInactive = .ok () := by
      rintro k rfl
      exact hinactive
    cases himplementation : bridge.tools.get? call.tool with
    | none => simp [himplementation] at h
    | some implementation =>
      cases refusal with
      | some reason => exact absurd (by simpa [himplementation] using h) hnot
      | none =>
        cases threat with
        | some reason =>
          have hmem : .ran tool params ∈ asked ++ scanned := by simpa [himplementation] using h
          exact ((List.mem_append.mp hmem).elim hnot hnot').elim
        | none =>
          have hmem : .ran tool params ∈ asked ++ scanned ++ [.ran call.tool call.params] := by simpa [himplementation] using h
          rcases List.mem_append.mp hmem with hbefore | hlast
          · exact ((List.mem_append.mp hbefore).elim hnot hnot').elim
          · cases List.mem_singleton.mp hlast
            exact ⟨rfl, rfl, hswitch, ⟨implementation, rfl⟩, asked, scanned, rfl, rfl, by simp⟩

/-- Past every check, the implementation runs. -/
theorem dispatch_of_checks (clock : ToolClock) {killSwitch : Option KillSwitch} {implementation : Dict Value → ToolOutcome}
    {asked scanned : List BridgeEvent} (hswitch : ∀ k, killSwitch = some k → k.requireInactive = .ok ())
    (himplementation : bridge.tools.get? call.tool = some implementation) (hguard : bridge.guardCheck call = (asked, none))
    (hsanitizer : bridge.sanitizerCheck lib call = (scanned, none)) :
    (bridge.dispatch lib call killSwitch clock).2.2 = asked ++ scanned ++ [.ran call.tool call.params] := by
  rw [← guardCheck_stats { bridge.stats with total := bridge.stats.total + 1 }] at hguard
  rw [← sanitizerCheck_stats { bridge.stats with total := bridge.stats.total + 1 }] at hsanitizer
  unfold dispatch
  cases killSwitch with
  | none => simp only [himplementation, hguard, hsanitizer]
  | some k => simp only [hswitch k rfl, himplementation, hguard, hsanitizer]

/-- Of short parameters, every string is in the text that is sanitised. -/
theorem inside_sanitized {json : List Char} {s : String} (hjson : lib.dumps (.dict call.params) = .ok json)
    (hshort : json.length ≤ sanitizedLength) (hs : Json.Inside s (.dict call.params)) :
    Json.dumpsString s <:+: (String.ofList (json.take sanitizedLength)).toList := by
  unfold BridgeLib.dumps at hjson
  split at hjson
  · cases hjson
  · cases hjson
    rw [String.toList_ofList, List.take_of_length_le hshort]
    exact Json.dumpsString_infix lib.floatText hs

/-- **What stands behind an implementation that runs.** -/
theorem ran_only_checked {killSwitch : Option KillSwitch} {clock : ToolClock} {tool : String} {params : Dict Value}
    (h : .ran tool params ∈ (bridge.dispatch lib call killSwitch clock).2.2) :
    tool = call.tool ∧ params = call.params ∧ (∃ implementation, bridge.tools.get? tool = some implementation) ∧
      (∀ k, killSwitch = some k → k.isActive = false) ∧
      ∃ before, (bridge.dispatch lib call killSwitch clock).2.2 = before ++ [.ran tool params] ∧
        GuardPassed bridge call before ∧ SanitizerPassed lib bridge call before ∧
        ∀ json s, bridge.inputSanitizer.isSome = true → lib.dumps (.dict params) = .ok json → json.length ≤ sanitizedLength →
          Json.Inside s (.dict params) →
          ∃ text, .sanitized text "mcp-bridge" ∈ before ∧ Json.dumpsString s <:+: text.toList := by
  obtain ⟨rfl, rfl, hswitch, himplementation, asked, scanned, hguard, hsanitizer, htrace⟩ := dispatch_of_ran h
  have hpassed := guardPassed_of_none hguard
  have hsanitized := sanitizerPassed_of_none hsanitizer
  refine ⟨rfl, rfl, himplementation, fun k hk => ?_, asked ++ scanned, htrace, ?_, ?_, ?_⟩
  · have hinactive := hswitch k hk
    unfold KillSwitch.requireInactive at hinactive
    split at hinactive
    · cases hinactive
    · next hnot => simpa using hnot
  · intro guard hsome
    exact ⟨List.mem_append_left _ (hpassed guard hsome).1, (hpassed guard hsome).2⟩
  · intro sanitize json hsome hjson
    exact ⟨List.mem_append_right _ (hsanitized sanitize json hsome hjson).1, (hsanitized sanitize json hsome hjson).2⟩
  · intro json s hsome hjson hshort hs
    obtain ⟨sanitize, hsanitize⟩ := Option.isSome_iff_exists.mp hsome
    exact ⟨_, List.mem_append_right _ (hsanitized sanitize json hsanitize hjson).1, inside_sanitized hjson hshort hs⟩

/-! ## Samples -/

def plainBridgeLib : BridgeLib := { floatText := fun _ => "0.0", tooDeep := fun _ => false }

/-- A guard that lets the brain list files, and a sanitiser that looks for one phrase. -/
def sampleBridge : MCPBridge where
  tools := [("filesystem.list", fun _ => .returned (.list []))]
  agentToolGuard := some fun agentId tool =>
    .ok { allowed := agentId = "brain" ∧ tool = "filesystem.list", reason := "not in the allowlist" }
  inputSanitizer := some fun text _ => .ok { safe := !isSubstring "ignore previous".toList text.toList }

def sampleClock : ToolClock := { durationMs := 1, timestamp := "2026-01-01T00:00:00+00:00" }

def listCall : ToolCall := { tool := "filesystem.list", params := [("path", .str "notes")], correlationId := "c1" }

theorem list_call_checked :
    "filesystem.list" = listCall.tool ∧ listCall.params = listCall.params ∧
      (∃ implementation, sampleBridge.tools.get? "filesystem.list" = some implementation) ∧
      (∀ k : KillSwitch, some {} = some k → k.isActive = false) ∧
      ∃ before, (sampleBridge.dispatch plainBridgeLib listCall (some {}) sampleClock).2.2 =
          before ++ [.ran "filesystem.list" listCall.params] ∧
        GuardPassed sampleBridge listCall before ∧ SanitizerPassed plainBridgeLib sampleBridge listCall before ∧
        ∀ json s, sampleBridge.inputSanitizer.isSome = true → plainBridgeLib.dumps (.dict listCall.params) = .ok json →
          json.length ≤ sanitizedLength → Json.Inside s (.dict listCall.params) →
          ∃ text, .sanitized text "mcp-bridge" ∈ before ∧ Json.dumpsString s <:+: text.toList := by
  refine ran_only_checked ?_
  have htrace : (sampleBridge.dispatch plainBridgeLib listCall (some {}) sampleClock).2.2 =
      [.guardAsked "brain" "filesystem.list", .sanitized "\x7b\"path\": \"notes\"\x7d" "mcp-bridge",
        .ran "filesystem.list" listCall.params] := by rfl
  rw [htrace]
  simp

/-- A sanitiser that takes no long text, and parameters that are one. -/
def shortTextsOnly : MCPBridge := { sampleBridge with inputSanitizer := some fun text _ => .ok { safe := text.length ≤ 5000 } }

def longText (n : Nat) : String := String.ofList (List.replicate n 'a')

def longCall (n : Nat) : ToolCall := { tool := "filesystem.list", params := [("path", .str (longText n))], correlationId := "c2" }

theorem longCall_length (n : Nat) (floatText : Rat → String) : n ≤ (Json.dumps floatText (.dict (longCall n).params)).length := by
  have hplain : (longText n).toList.all Json.plain = true := by
    rw [longText, String.toList_ofList, List.all_eq_true]
    intro c hc
    rw [List.eq_of_mem_replicate hc]
    rfl
  have hinside : Json.Inside (longText n) (.dict (longCall n).params) := .entry (List.mem_singleton_self _) .here
  have hinfix := (Json.dumpsString_infix floatText hinside).length_le
  rw [Json.dumpsString_plain hplain, longText, String.toList_ofList, List.length_append, List.length_cons,
    List.length_replicate] at hinfix
  omega

/-- What runs was not sanitised as a whole. -/
theorem long_parameters_run :
    ¬ ∀ (lib : BridgeLib) (bridge : MCPBridge) (call : ToolCall) (clock : ToolClock) (tool : String) (params : Dict Value),
      bridge.agentToolGuard.isSome = true → bridge.inputSanitizer.isSome = true →
      .ran tool params ∈ (bridge.dispatch lib call none clock).2.2 →
      ∃ json, lib.dumps (.dict params) = .ok json ∧
        .sanitized (String.ofList json) "mcp-bridge" ∈ (bridge.dispatch lib call none clock).2.2 := by
  intro h
  have hjson : plainBridgeLib.dumps (.dict (longCall 6000).params) =
      .ok (Json.dumps plainBridgeLib.floatText (.dict (longCall 6000).params)) := rfl
  have hlength := longCall_length 6000 plainBridgeLib.floatText
  generalize Json.dumps plainBridgeLib.floatText (.dict (longCall 6000).params) = json at hjson hlength
  have hsanitizer : shortTextsOnly.sanitizerCheck plainBridgeLib (longCall 6000) =
      ([.sanitized (String.ofList (json.take sanitizedLength)) "mcp-bridge"], none) := by
    unfold sanitizerCheck
    rw [hjson]
    have hsafe : min sanitizedLength json.length ≤ 5000 := by
      rw [sanitizedLength]
      omega
    simp [shortTextsOnly, hsafe]
  have hswitch : ∀ k, (none : Option KillSwitch) = some k → k.requireInactive = .ok () := by simp
  have htrace := dispatch_of_checks sampleClock hswitch rfl rfl hsanitizer
  obtain ⟨json', hdumps, hmem⟩ := h plainBridgeLib shortTextsOnly (longCall 6000) sampleClock "filesystem.list" _ rfl rfl
    (by rw [htrace]; exact List.mem_append_right _ (List.mem_singleton_self _))
  rw [hjson] at hdumps
  cases hdumps
  rw [htrace] at hmem
  have hall : String.ofList json = String.ofList (json.take sanitizedLength) := by simpa using hmem
  have hshort := congrArg String.length hall
  rw [String.length_ofList, String.length_ofList, List.length_take, sanitizedLength] at hshort
  omega

end MCPBridge

end Occp.Adapters
