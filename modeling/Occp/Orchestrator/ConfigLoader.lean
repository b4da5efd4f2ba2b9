import Occp.Lib.Except
import Occp.Policy.TrustLevels
import Occp.PyEq
import Occp.Text

/-!
# Agent definitions (`orchestrator/config_loader.py`)

A definition is parsed and checked against its trust level, and exported with its own metadata over the checked fields.
`text` is what a message says for a value, and `listed` what it says for the categories of a level.
-/

namespace Occp

open Lib.Except
open Policy (TrustLevel TrustConstraint trustConstraints)

/-! ## Definitions -/

/-- What `orchestrator/models.py` keeps of an agent. -/
structure AgentConfig where
  agentType : String
  displayName : Value
  capabilities : List Value
  maxConcurrent : Value
  timeoutSeconds : Value
  metadata : Dict Value

structure AgentDefinition where
  name : String
  displayName : Value
  trustLevel : TrustLevel
  capabilities : List Value
  tools : List Value
  model : Value
  policyProfile : Value
  maxConcurrent : Value
  timeoutSeconds : Value
  metadata : Dict Value

def AgentDefinition.toAgentConfig (defn : AgentDefinition) : AgentConfig where
  agentType := defn.name
  displayName := defn.displayName
  capabilities := defn.capabilities
  maxConcurrent := defn.maxConcurrent
  timeoutSeconds := defn.timeoutSeconds
  metadata := Dict.setAll [("trust_level", .str defn.trustLevel.name), ("tools", .list defn.tools), ("model", defn.model),
    ("policy_profile", defn.policyProfile)] defn.metadata

namespace ConfigLoader

def agentDefinitionError (name reason : String) : PyError :=
  .other "AgentDefinitionError" s!"Invalid agent definition '{name}': {reason}"

def trustViolationError (name : String) (violations : List String) : PyError :=
  let violations := "; ".intercalate violations
  .other "TrustViolationError" s!"Agent '{name}' trust violations: {violations}"

def attributeError (v : Value) (method : String) : PyError :=
  .other "AttributeError" s!"'{v.typeName}' object has no attribute '{method}'"

/-! ## Trust constraints -/

def toolCategories : Dict String :=
  [("shell.exec", "execute"), ("shell.read", "read"), ("file.read", "read"), ("file.write", "write"),
    ("file.delete", "write"), ("git.commit", "write"), ("git.push", "network"), ("git.pull", "network"),
    ("http.request", "network"), ("http.fetch", "network"), ("browser.navigate", "network"),
    ("browser.click", "execute"), ("llm.generate", "generate"), ("llm.embed", "compute"),
    ("agent.spawn", "orchestrate"), ("agent.delegate", "orchestrate"), ("db.query", "read"), ("db.mutate", "write"),
    ("deploy.staging", "execute"), ("deploy.production", "admin")]

def category (tool : String) : String := (toolCategories.get? tool).getD ""

/-- `TOOL_CATEGORIES.get(tool, "")`, which hashes its key. -/
def categoryOf : Value → Except PyError String
  | .str s => .ok (category s)
  | .list _ => .error (.typeError "unhashable type: 'list'")
  | .dict _ => .error (.typeError "unhashable type: 'dict'")
  | _ => .ok ""

/-- `any(t.startswith(start) for t in tools)`, which stops at the first that does. -/
def anyStartsWith (start : String) : List Value → Except PyError Bool
  | [] => .ok false
  | .str s :: rest => if start.toList.isPrefixOf s.toList then .ok true else anyStartsWith start rest
  | v :: _ => .error (attributeError v "startswith")

def violation (refused : Bool) (message : String) : List String := if refused then [message] else []

variable (text : Value → String) (listed : List String → String)

def checkTrustConstraints (defn : AgentDefinition) : Except PyError Unit :=
  match trustConstraints.lookup defn.trustLevel with
  | none => .error (.other "KeyError" defn.trustLevel.name)
  | some constraint => do
    let categories ← defn.tools.mapM categoryOf
    let allowed := listed constraint.maxToolCategories
    let byCategory := (defn.tools.zip categories).flatMap fun e =>
      violation (e.2 ≠ "" && !constraint.maxToolCategories.contains e.2)
        s!"Tool '{Text.inserted text e.1}' (category: {e.2}) not allowed at trust level {defn.trustLevel.name} (allowed: {allowed})"
    let hasLlmTool ← anyStartsWith "llm." defn.tools
    let hasNetworkTool := categories.contains "network"
    let hasSpawnTool ← anyStartsWith "agent." defn.tools
    let violations := byCategory ++
      violation (hasLlmTool && !constraint.canUseLlm) s!"LLM tools not allowed at trust level {defn.trustLevel.name}" ++
      violation (hasNetworkTool && !constraint.canAccessNetwork)
        s!"Network tools not allowed at trust level {defn.trustLevel.name}" ++
      violation (hasSpawnTool && !constraint.canSpawnChildren)
        s!"Agent spawn tools not allowed at trust level {defn.trustLevel.name}"
    if violations = [] then .ok () else .error (trustViolationError defn.name violations)

/-! ## Parsing -/

def trustLevels : List TrustLevel :=
  [.l0Deterministic, .l1Constrained, .l2Supervised, .l3Autonomous, .l4Delegating, .l5Orchestrator]

def require (condition : Bool) (e : PyError) : Except PyError Unit := if condition then .ok () else .error e

def parseName : Value → Except PyError String
  | .str s => .ok (String.ofList (Text.strip s.toList))
  | v => .error (attributeError v "strip")

def invalidTrustLevel (name trustText : String) : PyError :=
  agentDefinitionError name s!"Invalid trust_level '{trustText}'. Valid: {reprStrings (trustLevels.map TrustLevel.name)}"

/-- `TrustLevel[trust_str]`. -/
def parseTrustLevel (name : String) : Value → Except PyError TrustLevel
  | .list _ => .error (.typeError "unhashable type: 'list'")
  | .dict _ => .error (.typeError "unhashable type: 'dict'")
  | .str s =>
    match trustLevels.find? (·.name = s) with
    | some level => .ok level
    | none => .error (invalidTrustLevel name s)
  | v => .error (invalidTrustLevel name (text v))

def parseList (name field : String) : Value → Except PyError (List Value)
  | .list items => .ok items
  | _ => .error (agentDefinitionError name s!"{field} must be a list")

/-- A `bool` is an `int`. -/
def parsePositive (name field : String) (v : Value) : Except PyError Value :=
  let positive := match v with
    | .int n => decide (1 ≤ n)
    | .bool b => b
    | _ => false
  if positive then .ok v else .error (agentDefinitionError name s!"{field} must be a positive integer")

def parseDict (name field : String) : Value → Except PyError (Dict Value)
  | .dict entries => .ok entries
  | _ => .error (agentDefinitionError name s!"{field} must be a dict")

/-- What `load_yaml` makes of the definition before it is checked. -/
def parse (data : Dict Value) : Except PyError AgentDefinition := do
  let name ← parseName ((data.get? "name").getD (.str ""))
  require (name ≠ "") (agentDefinitionError "<unknown>" "Missing required field: name")
  let displayName := (data.get? "display_name").getD (.str name)
  require displayName.truthy (agentDefinitionError name "display_name must not be empty")
  let trustStr := (data.get? "trust_level").getD (.str "")
  require trustStr.truthy (agentDefinitionError name "Missing required field: trust_level")
  let trustLevel ← parseTrustLevel text name trustStr
  let capabilities ← parseList name "capabilities" ((data.get? "capabilities").getD (.list []))
  let tools ← parseList name "tools" ((data.get? "tools").getD (.list []))
  let model := (data.get? "model").getD (.str "")
  let policyProfile := (data.get? "policy_profile").getD (.str "default")
  let maxConcurrent ← parsePositive name "max_concurrent" ((data.get? "max_concurrent").getD (.int 1))
  let timeoutSeconds ← parsePositive name "timeout_seconds" ((data.get? "timeout_seconds").getD (.int 300))
  let metadata ← parseDict name "metadata" ((data.get? "metadata").getD (.dict []))
  pure { name, displayName, trustLevel, capabilities, tools, model, policyProfile, maxConcurrent, timeoutSeconds, metadata }

/-! ## What a level permits -/

structure ToolPermitted (constraint : TrustConstraint) (tool : String) : Prop where
  byCategory : category tool ≠ "" → category tool ∈ constraint.maxToolCategories
  llm : "llm.".toList <+: tool.toList → constraint.canUseLlm = true
  network : category tool = "network" → constraint.canAccessNetwork = true
  spawn : "agent.".toList <+: tool.toList → constraint.canSpawnChildren = true

/-- The tools satisfy the constraints of the level. -/
def Permits (level : TrustLevel) (tools : List Value) : Prop :=
  ∃ constraint, trustConstraints.lookup level = some constraint ∧
    ∀ tool, Value.str tool ∈ tools → ToolPermitted constraint tool

theorem anyStartsWith_false {start : String} {tools : List Value} (h : anyStartsWith start tools = .ok false) (s : String)
    (hs : Value.str s ∈ tools) : ¬ start.toList <+: s.toList := by
  induction tools with
  | nil => cases hs
  | cons v rest ih =>
    cases v with
    | str s' =>
      rw [anyStartsWith] at h
      split at h
      · cases h
      · next hstart =>
        rcases List.mem_cons.mp hs with heq | hs
        · cases heq
          rwa [List.isPrefixOf_iff_prefix] at hstart
        · exact ih h hs
    | _ => cases h

theorem violation_eq_nil_iff {refused : Bool} {message : String} : violation refused message = [] ↔ refused = false := by
  cases refused <;> simp [violation]

theorem granted_of_violation {start : String} {tools : List Value} {found granted : Bool} {message tool : String}
    (hfound : anyStartsWith start tools = .ok found) (hnone : violation (found && !granted) message = [])
    (htool : Value.str tool ∈ tools) (hstart : start.toList <+: tool.toList) : granted = true := by
  cases found with
  | false => exact absurd hstart (anyStartsWith_false hfound tool htool)
  | true => simpa using violation_eq_nil_iff.mp hnone

/-- A tool stands beside its category. -/
theorem mem_zip_of_mapM {tools : List Value} {categories : List String} (h : tools.mapM categoryOf = .ok categories)
    {tool : String} (htool : Value.str tool ∈ tools) : (Value.str tool, category tool) ∈ tools.zip categories := by
  have hall := mapM_eq_ok.mp h
  clear h
  induction hall with
  | nil => cases htool
  | @cons v c tools categories hv hrest ih =>
    rw [List.zip_cons_cons]
    rcases List.mem_cons.mp htool with rfl | htool
    · cases hv
      exact List.mem_cons_self
    · exact List.mem_cons_of_mem _ (ih htool)

/-- What passes the check is permitted. -/
theorem permits_of_check {defn : AgentDefinition} (h : checkTrustConstraints text listed defn = .ok ()) :
    Permits defn.trustLevel defn.tools := by
  unfold checkTrustConstraints at h
  split at h
  · cases h
  · next constraint hlookup =>
    obtain ⟨categories, hcategories, h⟩ := bind_eq_ok.mp h
    obtain ⟨hasLlmTool, hllm, h⟩ := bind_eq_ok.mp h
    obtain ⟨hasSpawnTool, hspawn, h⟩ := bind_eq_ok.mp h
    dsimp only at h
    split at h
    · next hnone =>
      simp only [List.append_eq_nil_iff, List.flatMap_eq_nil_iff] at hnone
      obtain ⟨⟨⟨hbyCategory, hnoLlm⟩, hnoNetwork⟩, hnoSpawn⟩ := hnone
      refine ⟨constraint, hlookup, fun tool htool => ?_⟩
      have hzip := mem_zip_of_mapM hcategories htool
      constructor
      · intro hne
        have hallowed := violation_eq_nil_iff.mp (hbyCategory _ hzip)
        simpa [hne] using hallowed
      · exact granted_of_violation hllm hnoLlm htool
      · intro hnetwork
        have hmem : "network" ∈ categories := hnetwork ▸ (List.of_mem_zip hzip).2
        have hallowed := violation_eq_nil_iff.mp hnoNetwork
        simpa [hmem] using hallowed
      · exact granted_of_violation hspawn hnoSpawn htool
    · cases h

/-- Equal tools are permitted alike. -/
theorem permits_congr {level : TrustLevel} {tools tools' : List Value}
    (h : List.Forall₂ (fun v w => v.pyEq w = true) tools tools') (hpermits : Permits level tools') :
    Permits level tools := by
  obtain ⟨constraint, hlookup, hall⟩ := hpermits
  refine ⟨constraint, hlookup, fun tool htool => hall tool ?_⟩
  clear hall
  induction h with
  | nil => cases htool
  | @cons v w tools tools' hvw hrest ih =>
    rcases List.mem_cons.mp htool with rfl | htool
    · rw [(Value.pyEq_str_iff tool w).mp hvw]
      exact List.mem_cons_self
    · exact List.mem_cons_of_mem w (ih htool)

end ConfigLoader

/-! ## The loader -/

/-- The loaded definitions, each under its name; with validation on, each has the tools that its level permits. -/
structure ConfigLoader where
  validateTrust : Bool := true
  definitions : Dict AgentDefinition := []
  keyed : ∀ e ∈ definitions, e.2.name = e.1
  nodup : definitions.keys.Nodup
  permitted : validateTrust = true → ∀ e ∈ definitions, ConfigLoader.Permits e.2.trustLevel e.2.tools

namespace ConfigLoader

def new (validateTrust : Bool) : ConfigLoader where
  validateTrust := validateTrust
  definitions := []
  keyed := nofun
  nodup := List.nodup_nil
  permitted _ := nofun

variable (text : Value → String) (listed : List String → String)

def check (l : ConfigLoader) (defn : AgentDefinition) : Except PyError Unit :=
  if l.validateTrust then checkTrustConstraints text listed defn else .ok ()

def store (l : ConfigLoader) (defn : AgentDefinition)
    (h : l.validateTrust = true → Permits defn.trustLevel defn.tools) : ConfigLoader where
  validateTrust := l.validateTrust
  definitions := l.definitions.set defn.name defn
  keyed e he := by
    rcases Dict.mem_set he with rfl | he
    · rfl
    · exact l.keyed e he
  nodup := Dict.nodup_keys_set _ _ _ l.nodup
  permitted hon e he := by
    rcases Dict.mem_set he with rfl | he
    · exact h hon
    · exact l.permitted hon e he

theorem permits_of_loader_check {l : ConfigLoader} {defn : AgentDefinition} (h : l.check text listed defn = .ok ())
    (hon : l.validateTrust = true) : Permits defn.trustLevel defn.tools := by
  rw [check, if_pos hon] at h
  exact permits_of_check text listed h

def loadYaml (l : ConfigLoader) (data : Dict Value) : Except PyError (AgentDefinition × ConfigLoader) :=
  match parse text data with
  | .error e => .error e
  | .ok defn =>
    match h : l.check text listed defn with
    | .error e => .error e
    | .ok () => .ok (defn, l.store defn (permits_of_loader_check text listed h))

def getAgentConfigs (l : ConfigLoader) : List AgentConfig := l.definitions.map fun e => e.2.toAgentConfig

/-! ## What is exported -/

/-- What a definition says of its own privileges. -/
def declared (data : Dict Value) : List (String × Value) :=
  [("trust_level", (data.get? "trust_level").getD (.str "")), ("tools", (data.get? "tools").getD (.list [])),
    ("policy_profile", (data.get? "policy_profile").getD (.str "default"))]

/-- The definition's own metadata. -/
def ownMetadata (data : Dict Value) : Dict Value :=
  match data.get? "metadata" with
  | some (.dict entries) => entries
  | _ => []

/-- The metadata says nothing else of the privileges. -/
def Unopposed (data : Dict Value) : Prop :=
  ∀ e ∈ declared data, ∀ v, (ownMetadata data).get? e.1 = some v → v.pyEq e.2 = true

/-- What is exported equals what was validated, and the exported tools satisfy the exported level. -/
structure ExportsValidated (defn : AgentDefinition) (config : AgentConfig) : Prop where
  trustLevel : ∃ v, config.metadata.get? "trust_level" = some v ∧ v.pyEq (.str defn.trustLevel.name) = true
  tools : ∃ v, config.metadata.get? "tools" = some v ∧ v.pyEq (.list defn.tools) = true
  policyProfile : ∃ v, config.metadata.get? "policy_profile" = some v ∧ v.pyEq defn.policyProfile = true
  satisfied : ∃ level tools, config.metadata.get? "trust_level" = some (.str (TrustLevel.name level)) ∧
    config.metadata.get? "tools" = some (.list tools) ∧ Permits level tools

variable {text listed} {data : Dict Value} {defn : AgentDefinition}

theorem parseTrustLevel_ok {name : String} {v : Value} {level : TrustLevel} (h : parseTrustLevel text name v = .ok level) :
    v = .str level.name := by
  unfold parseTrustLevel at h
  split at h
  · cases h
  · cases h
  · next s =>
    cases hfind : trustLevels.find? (·.name = s) with
    | none =>
      rw [hfind] at h
      cases h
    | some found =>
      rw [hfind] at h
      cases h
      have hname : level.name = s := by simpa using List.find?_some hfind
      rw [hname]
  · cases h

theorem parseList_ok {name field : String} {v : Value} {items : List Value} (h : parseList name field v = .ok items) :
    v = .list items := by
  cases v with
  | list items' =>
    cases h
    rfl
  | _ => cases h

theorem parseDict_ok {name field : String} {v : Value} {entries : Dict Value} (h : parseDict name field v = .ok entries) :
    v = .dict entries := by
  cases v with
  | dict entries' =>
    cases h
    rfl
  | _ => cases h

/-- What is read of the privileges is what the definition declares. -/
theorem parse_ok (h : parse text data = .ok defn) :
    declared data = [("trust_level", .str defn.trustLevel.name), ("tools", .list defn.tools),
      ("policy_profile", defn.policyProfile)] ∧ ownMetadata data = defn.metadata := by
  unfold parse at h
  simp only [bind_eq_ok] at h
  obtain ⟨name, -, -, -, -, -, -, -, level, hlevel, capabilities, -, tools, htools, maxConcurrent, -, timeoutSeconds, -,
    metadata, hmetadata, h⟩ := h
  cases h
  refine ⟨?_, ?_⟩
  · rw [declared, parseTrustLevel_ok hlevel, parseList_ok htools]
  · have hdict := parseDict_ok hmetadata
    unfold ownMetadata
    cases hget : data.get? "metadata" with
    | none =>
      rw [hget] at hdict
      cases hdict
      rfl
    | some v =>
      rw [hget] at hdict
      have hv : v = .dict metadata := hdict
      rw [hv]

/-- An entry of the metadata wins over what was validated. -/
theorem exported_get? (hkeys : defn.metadata.keys.Nodup) {key : String} {v : Value}
    (hkey : Dict.get? [("trust_level", .str defn.trustLevel.name), ("tools", .list defn.tools), ("model", defn.model),
      ("policy_profile", defn.policyProfile)] key = some v) :
    defn.toAgentConfig.metadata.get? key = some ((defn.metadata.get? key).getD v) := by
  unfold AgentDefinition.toAgentConfig
  dsimp only
  cases hget : defn.metadata.get? key with
  | none =>
    have hnot : key ∉ defn.metadata.map (·.1) := (Dict.get?_eq_none_iff _ _).mp hget
    rw [Dict.get?_setAll_of_notMem _ _ _ hnot, hkey]
    rfl
  | some w => exact Dict.get?_setAll_of_mem _ _ _ _ hkeys (Dict.mem_of_get? hget)

/-- What is exported under a key equals what was validated just when no entry of the metadata differs. -/
theorem exported_eq_iff (hkeys : defn.metadata.keys.Nodup) (key : String) {v : Value}
    (hkey : Dict.get? [("trust_level", .str defn.trustLevel.name), ("tools", .list defn.tools), ("model", defn.model),
      ("policy_profile", defn.policyProfile)] key = some v) (hself : v.pyEq v = true) :
    (∃ w, defn.toAgentConfig.metadata.get? key = some w ∧ w.pyEq v = true) ↔
      ∀ w, defn.metadata.get? key = some w → w.pyEq v = true := by
  rw [exported_get? hkeys hkey]
  cases hget : defn.metadata.get? key with
  | none => simp [hself]
  | some w => simp

theorem permits_exported {config : AgentConfig} (hpermits : Permits defn.trustLevel defn.tools)
    (hlevel : ∃ v, config.metadata.get? "trust_level" = some v ∧ v.pyEq (.str defn.trustLevel.name) = true)
    (htools : ∃ v, config.metadata.get? "tools" = some v ∧ v.pyEq (.list defn.tools) = true) :
    ∃ level tools, config.metadata.get? "trust_level" = some (.str (TrustLevel.name level)) ∧
      config.metadata.get? "tools" = some (.list tools) ∧ Permits level tools := by
  obtain ⟨v, hv, hlevel⟩ := hlevel
  obtain ⟨w, hw, htools⟩ := htools
  obtain ⟨tools, rfl, hall⟩ := Value.eq_list_of_pyEq htools
  rw [Value.eq_str_of_pyEq hlevel] at hv
  exact ⟨defn.trustLevel, tools, hv, hw, permits_congr hall hpermits⟩

theorem wellFormed_get? (hdata : (Value.dict data).WellFormed) {key : String} {v : Value} (h : data.get? key = some v) :
    v.WellFormed := by
  cases hdata with | dict hkeys hvalues =>
  exact hvalues _ (Dict.mem_of_get? h)

theorem wellFormed_getD (hdata : (Value.dict data).WellFormed) {key : String} {v : Value} (hv : v.WellFormed) :
    ((data.get? key).getD v).WellFormed := by
  cases h : data.get? key with
  | none => exact hv
  | some w => exact wellFormed_get? hdata h

theorem nodup_ownMetadata (hdata : (Value.dict data).WellFormed) : (ownMetadata data).keys.Nodup := by
  unfold ownMetadata
  split
  · next entries hget =>
    cases wellFormed_get? hdata hget with | dict hkeys hvalues =>
    exact hkeys
  · exact List.nodup_nil

theorem loadYaml_ok {l l' : ConfigLoader} (h : l.loadYaml text listed data = .ok (defn, l')) :
    parse text data = .ok defn ∧ l.check text listed defn = .ok () ∧
      l'.definitions = l.definitions.set defn.name defn := by
  unfold loadYaml at h
  split at h
  · cases h
  · next hparse =>
    split at h
    · cases h
    · next hcheck =>
      cases h
      exact ⟨hparse, hcheck, rfl⟩

theorem filter_key {α : Type} {d : Dict α} {key : String} {v : α} (hnodup : d.keys.Nodup) (h : d.get? key = some v) :
    d.filter (fun e => decide (e.1 = key)) = [(key, v)] := by
  induction d with
  | nil => cases h
  | cons e rest ih =>
    obtain ⟨k, w⟩ := e
    obtain ⟨hnot, hrest⟩ := List.nodup_cons.mp hnodup
    unfold Dict.get? at h
    split at h
    · next hk =>
      cases h
      have hnone : rest.filter (fun e => decide (e.1 = key)) = [] := by
        rw [List.filter_eq_nil_iff]
        intro e he hkey
        exact hnot (List.mem_map.mpr ⟨e, he, (of_decide_eq_true hkey).trans hk.symm⟩)
      rw [List.filter_cons_of_pos (by simpa using hk), hnone, hk]
    · next hk => rw [List.filter_cons_of_neg (by simpa using hk), ih hrest h]

/-- One configuration is returned for a definition that was just loaded. -/
theorem getAgentConfigs_of_load {l l' : ConfigLoader} (h : l.loadYaml text listed data = .ok (defn, l')) :
    l'.getAgentConfigs.filter (·.agentType = defn.name) = [defn.toAgentConfig] := by
  obtain ⟨-, -, hset⟩ := loadYaml_ok h
  have hget : l'.definitions.get? defn.name = some defn := by rw [hset, Dict.get?_set_self]
  have hnamed : l'.definitions.filter (fun e => decide (e.2.toAgentConfig.agentType = defn.name)) =
      l'.definitions.filter fun e => decide (e.1 = defn.name) := by
    refine List.filter_congr fun e he => ?_
    rw [← l'.keyed e he]
    rfl
  unfold getAgentConfigs
  rw [List.filter_map, Function.comp_def, hnamed, filter_key l'.nodup hget]
  rfl

/-- The configuration of an accepted definition has the privileges that were validated just when the definition's own
metadata says nothing else of them. -/
theorem exportsValidated_iff {l l' : ConfigLoader} (hdata : (Value.dict data).WellFormed) (hon : l.validateTrust = true)
    (hload : l.loadYaml text listed data = .ok (defn, l')) :
    (∃ config, l'.getAgentConfigs.filter (·.agentType = defn.name) = [config] ∧ ExportsValidated defn config) ↔
      Unopposed data := by
  obtain ⟨hparse, hcheck, -⟩ := loadYaml_ok hload
  obtain ⟨hdeclared, hmetadata⟩ := parse_ok hparse
  have hkeys : defn.metadata.keys.Nodup := hmetadata ▸ nodup_ownMetadata hdata
  have hself : ∀ e ∈ declared data, e.2.pyEq e.2 = true := by
    intro e he
    simp only [declared, List.mem_cons, List.not_mem_nil, or_false] at he
    rcases he with rfl | rfl | rfl
    · exact Value.pyEq_refl (wellFormed_getD hdata (.str ""))
    · exact Value.pyEq_refl (wellFormed_getD hdata (.list nofun))
    · exact Value.pyEq_refl (wellFormed_getD hdata (.str "default"))
  rw [hdeclared] at hself
  simp only [List.forall_mem_cons] at hself
  obtain ⟨hselfLevel, hselfTools, hselfPolicy, -⟩ := hself
  have hlevel := exported_eq_iff hkeys "trust_level" rfl hselfLevel
  have htools := exported_eq_iff hkeys "tools" rfl hselfTools
  have hpolicy := exported_eq_iff hkeys "policy_profile" rfl hselfPolicy
  have hcondition : Unopposed data ↔
      (∀ w, defn.metadata.get? "trust_level" = some w → w.pyEq (.str defn.trustLevel.name) = true) ∧
      (∀ w, defn.metadata.get? "tools" = some w → w.pyEq (.list defn.tools) = true) ∧
      ∀ w, defn.metadata.get? "policy_profile" = some w → w.pyEq defn.policyProfile = true := by
    unfold Unopposed
    rw [hdeclared, hmetadata]
    simp
  rw [getAgentConfigs_of_load hload, hcondition, ← hlevel, ← htools, ← hpolicy]
  constructor
  · rintro ⟨config, heq, hexports⟩
    cases heq
    exact ⟨hexports.trustLevel, hexports.tools, hexports.policyProfile⟩
  · rintro ⟨htrust, htool, hprofile⟩
    exact ⟨_, rfl, htrust, htool, hprofile,
      permits_exported (permits_of_loader_check text listed hcheck hon) htrust htool⟩

/-- A supervised helper that calls itself an orchestrator in its metadata. -/
def helperData : Dict Value :=
  [("name", .str "helper"), ("trust_level", .str "L1_CONSTRAINED"), ("tools", .list [.str "file.read"]),
    ("metadata", .dict [("trust_level", .str "L5_ORCHESTRATOR"), ("tools", .list [.str "deploy.production"])])]

def helper : AgentDefinition where
  name := "helper"
  displayName := .str "helper"
  trustLevel := .l1Constrained
  capabilities := []
  tools := [.str "file.read"]
  model := .str ""
  policyProfile := .str "default"
  maxConcurrent := .int 1
  timeoutSeconds := .int 300
  metadata := [("trust_level", .str "L5_ORCHESTRATOR"), ("tools", .list [.str "deploy.production"])]

theorem helperData_wellFormed : (Value.dict helperData).WellFormed := by
  refine .dict (by decide) fun e he => ?_
  simp only [helperData, List.mem_cons, List.not_mem_nil, or_false] at he
  rcases he with rfl | rfl | rfl | rfl
  · exact .str _
  · exact .str _
  · exact .list (by simpa using .str _)
  · refine .dict (by decide) fun e he => ?_
    simp only [List.mem_cons, List.not_mem_nil, or_false] at he
    rcases he with rfl | rfl
    · exact .str _
    · exact .list (by simpa using .str _)

theorem helper_permitted : Permits helper.trustLevel helper.tools := by
  have hcheck : checkTrustConstraints (fun _ => "") reprStrings helper = .ok () := rfl
  exact permits_of_check _ _ hcheck

def helperLoaded : ConfigLoader := (new true).store helper fun _ => helper_permitted

theorem loadYaml_helper (text : Value → String) : (new true).loadYaml text reprStrings helperData = .ok (helper, helperLoaded) :=
  rfl

theorem exportsValidated_iff_helper :
    (∃ config, helperLoaded.getAgentConfigs.filter (·.agentType = helper.name) = [config] ∧
      ExportsValidated helper config) ↔ Unopposed helperData :=
  exportsValidated_iff helperData_wellFormed rfl (loadYaml_helper fun _ => "")

/-- The exported level is the one that the helper gives itself. -/
theorem exported_above_validated :
    ¬ ∀ (text : Value → String) (listed : List String → String) (l l' : ConfigLoader) (data : Dict Value)
      (defn : AgentDefinition), (Value.dict data).WellFormed → l.validateTrust = true →
      l.loadYaml text listed data = .ok (defn, l') →
      ∃ config, l'.getAgentConfigs.filter (·.agentType = defn.name) = [config] ∧ ExportsValidated defn config := by
  intro h
  have hload := loadYaml_helper fun _ => ""
  obtain ⟨config, hconfig, hexports⟩ := h _ _ _ _ _ _ helperData_wellFormed rfl hload
  rw [getAgentConfigs_of_load hload] at hconfig
  cases hconfig
  obtain ⟨v, hv, heq⟩ := hexports.trustLevel
  have hlevel : helper.toAgentConfig.metadata.get? "trust_level" = some (.str "L5_ORCHESTRATOR") := rfl
  rw [hlevel] at hv
  cases hv
  exact absurd heq (by decide)

end ConfigLoader

end Occp
