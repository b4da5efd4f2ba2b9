import Occp.Adapters.PolicyGate
import Occp.Text

/-!
# The browser sandbox (`adapters/browser_sandbox.py`)

Navigation is checked against lists of domains, then by the gate. No browser runs: an action is recorded.
-/

namespace Occp.Adapters

open Policy Text

inductive BrowserAction where
  | navigate
  | click
  | type
  | screenshot
  | evaluate
  | wait
  | scroll
  | select
  deriving DecidableEq

def BrowserAction.value : BrowserAction → String
  | navigate => "navigate"
  | click => "click"
  | type => "type"
  | screenshot => "screenshot"
  | evaluate => "evaluate"
  | wait => "wait"
  | scroll => "scroll"
  | select => "select"

structure BrowserSandboxConfig where
  allowedDomains : List String := []
  deniedDomains : List String := []
  screenshotEnabled : Bool := true

structure BrowserCommand where
  action : BrowserAction
  target : String := ""
  value : String := ""

structure BrowserResult where
  command : BrowserCommand
  success : Bool
  output : Value := .none
  durationMs : Rat
  screenshotData : Option String := none
  auditId : String

/-! ## Domains -/

def schemes : List (List Char) := ["https://".toList, "http://".toList, "ftp://".toList]

/-- The loop over the schemes, which stops at the first. -/
def stripScheme (url : List Char) : List Char :=
  match schemes.find? fun scheme => scheme.isPrefixOf (lower url) with
  | some scheme => url.drop scheme.length
  | none => url

/-- `s.split(c)[0]`. -/
def before (c : Char) (s : List Char) : List Char := s.takeWhile (· ≠ c)

def extractDomain (url : List Char) : List Char := lower (before ':' (before '/' (stripScheme url)))

def domainMatches (domain : List Char) (pattern : String) : Bool :=
  let domain := lower domain
  let pattern := lower pattern.toList
  if ['*', '.'].isPrefixOf pattern then
    let suffix := pattern.drop 2
    domain == suffix || ('.' :: suffix).isSuffixOf domain
  else domain == pattern

/-- An empty list of allowed domains allows all. -/
def BrowserSandboxConfig.isDomainAllowed (config : BrowserSandboxConfig) (domain : List Char) : Bool :=
  let domain := lower domain
  if config.deniedDomains.any (domainMatches domain) then false
  else if config.allowedDomains = [] then true
  else config.allowedDomains.any (domainMatches domain)

/-! ## The sandbox -/

/-- What an action takes from the clocks and from `uuid4`. -/
structure BrowserMoment extends GateMoment where
  durationMs : Rat
  taskId : String
  auditId : String

structure BrowserSandbox where
  config : BrowserSandboxConfig := {}
  gate : Option PolicyGate := none
  commandsExecuted : Nat := 0
  domainsVisited : List String := []
  deniedCount : Nat := 0
  actionLog : List (Dict Value) := []
  /-- The events handed to the audit callback, when there is one. -/
  audited : Option (List (Dict Value)) := none

namespace BrowserSandbox

variable (py : PyLib) (s : BrowserSandbox) (m : BrowserMoment)

/-- The call that `_check_gate` makes. -/
def gateCall (action : BrowserAction) (target : String) : GateCall where
  agentId := "browser_sandbox"
  trustLevel := .l2Supervised
  action := s!"browser.{action.value}"
  toolCategory := "browser"
  requiresNetwork := true
  task := { id := m.taskId, name := s!"browser:{action.value}"
            description := s!"Browser action {action.value} on target: {target}", agentType := "browser_sandbox"
            riskLevel := .medium }

def checkGate (action : BrowserAction) (target : String) : Except PyError Unit × BrowserSandbox :=
  match s.gate with
  | none => (.ok (), s)
  | some gate =>
    let (decision, gate) := gate.gateAction py none (gateCall m action target) m.toGateMoment
    let s := { s with gate := some gate }
    if decision.allowed then (.ok (), s)
    else (.error (.other "BrowserGateDeniedError" s!"Gate denied browser action '{action.value}': {decision.reason}"), s)

def emitAudit (event : Dict Value) : BrowserSandbox := { s with audited := s.audited.map (· ++ [event]) }

def denyDomain (url : String) (domain : List Char) : PyError × BrowserSandbox :=
  let text := String.ofList domain
  (.other "BrowserDomainDeniedError" s!"Domain denied by policy: {text}",
    { s with deniedCount := s.deniedCount + 1 }.emitAudit [("event", .str "domain_denied"), ("url", .str url),
      ("domain", .str text), ("audit_id", .str m.auditId)])

def stubDispatch (command : BrowserCommand) : Value :=
  let stub (entries : Dict Value) : Value := .dict (entries ++ [("stub", .bool true)])
  match command.action with
  | .navigate => stub [("url", .str command.target), ("status", .int 200)]
  | .click => stub [("clicked", .str command.target)]
  | .type => stub [("typed", .str command.value), ("into", .str command.target)]
  | .screenshot => stub [("screenshot", .str "stub_data")]
  | .evaluate => stub [("result", .none), ("expression", .str command.value)]
  | .wait => stub [("waited", .str (if command.target = "" then command.value else command.target))]
  | .scroll => stub [("scrolled", .str command.target), ("value", .str command.value)]
  | .select => stub [("selected", .str command.value), ("in", .str command.target)]

/-- `set.add`. -/
def visit (domain : List Char) : BrowserSandbox :=
  let domain := String.ofList domain
  if domain ∈ s.domainsVisited then s else { s with domainsVisited := s.domainsVisited ++ [domain] }

def stubScreenshot (action : BrowserAction) : Option String :=
  if action = .screenshot ∧ s.config.screenshotEnabled = true then some "stub_screenshot_data" else none

/-- `_execute_stub`, where nothing raises. -/
def executeStub (command : BrowserCommand) (domain : List Char) : BrowserResult × BrowserSandbox :=
  let s := { s with commandsExecuted := s.commandsExecuted + 1 }
  let s := if domain ≠ [] then s.visit domain
    else if command.action = .navigate ∧ command.target ≠ "" then s.visit (extractDomain command.target.toList) else s
  let entry : Dict Value := [("action", .str command.action.value), ("target", .str command.target),
    ("value", .str command.value), ("audit_id", .str m.auditId), ("success", .bool true)]
  let s := { s with actionLog := s.actionLog ++ [entry] }
  ({ command, success := true, output := stubDispatch command, durationMs := m.durationMs
     screenshotData := s.stubScreenshot command.action, auditId := m.auditId },
    s.emitAudit [("event", .str "action_executed"), ("action", .str command.action.value), ("target", .str command.target),
      ("audit_id", .str m.auditId), ("success", .bool true)])

def navigate (url : String) : Except PyError BrowserResult × BrowserSandbox :=
  let domain := extractDomain url.toList
  if !s.config.isDomainAllowed domain then
    let (exc, s) := s.denyDomain m url domain
    (.error exc, s)
  else
    match s.checkGate py m .navigate url with
    | (.error exc, s) => (.error exc, s)
    | (.ok (), s) =>
      let (result, s) := s.executeStub m { action := .navigate, target := url } domain
      (.ok result, s)

/-- The gate comes first here. -/
def execute (command : BrowserCommand) : Except PyError BrowserResult × BrowserSandbox :=
  match s.checkGate py m command.action command.target with
  | (.error exc, s) => (.error exc, s)
  | (.ok (), s) =>
    let domain := extractDomain command.target.toList
    if command.action = .navigate ∧ command.target ≠ "" ∧ s.config.isDomainAllowed domain = false then
      let (exc, s) := s.denyDomain m command.target domain
      (.error exc, s)
    else
      let (result, s) := s.executeStub m command []
      (.ok result, s)

/-- The sandbox lets a navigation through, asked for in either way. -/
def Permits (url : String) : Prop :=
  (∃ result, (s.navigate py m url).1 = .ok result) ∨
    ∃ value result, (s.execute py m { action := .navigate, target := url, value }).1 = .ok result

variable {py s m}

variable (py s m) in
theorem checkGate_config (action : BrowserAction) (target : String) : (s.checkGate py m action target).2.config = s.config := by
  unfold checkGate
  split
  · rfl
  · dsimp only
    split <;> rfl

theorem checkGate_none (h : s.gate = none) (action : BrowserAction) (target : String) :
    s.checkGate py m action target = (.ok (), s) := by
  unfold checkGate
  rw [h]

theorem isDomainAllowed_of_navigate {url : String} {result : BrowserResult} (h : (s.navigate py m url).1 = .ok result) :
    s.config.isDomainAllowed (extractDomain url.toList) = true := by
  unfold navigate at h
  dsimp only at h
  split at h
  · cases h
  · next hallowed => simpa using hallowed

theorem isDomainAllowed_of_execute {url value : String} {result : BrowserResult} (hurl : url ≠ "")
    (h : (s.execute py m { action := .navigate, target := url, value }).1 = .ok result) :
    s.config.isDomainAllowed (extractDomain url.toList) = true := by
  have hconfig := checkGate_config py s m .navigate url
  unfold execute at h
  dsimp only at h
  split at h
  · cases h
  · next s' hgate =>
    rw [hgate] at hconfig
    split at h
    · cases h
    · next hnot =>
      rw [← hconfig]
      simpa [hurl] using hnot

/-- Without a gate, what is allowed is visited. -/
theorem permits_of_isDomainAllowed {url : String} (hgate : s.gate = none)
    (h : s.config.isDomainAllowed (extractDomain url.toList) = true) : s.Permits py m url := by
  left
  unfold navigate
  simp [h, checkGate_none hgate]

theorem isDomainAllowed_of_permits {url : String} (hurl : url ≠ "") (h : s.Permits py m url) :
    s.config.isDomainAllowed (extractDomain url.toList) = true := by
  rcases h with ⟨result, h⟩ | ⟨value, result, h⟩
  · exact isDomainAllowed_of_navigate h
  · exact isDomainAllowed_of_execute hurl h

end BrowserSandbox

end Occp.Adapters
