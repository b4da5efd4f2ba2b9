import Occp.Orchestrator.SkillScope
import Occp.Text

/-!
# Network scopes of skills (`orchestrator/skill_manifest.py`)

An entry of a scope stands for itself, and with `*.` before it for every domain below it. The validator looks for its
blocked entries among those of the manifest. `lower` is `str.lower`.
-/

namespace Occp.Skills

/-! ## The manifest -/

structure NetworkScope where
  allowedDomains : List String := []
  allowAll : Bool := false

structure CommandScope where
  allowedCommands : List String := []

structure DataScope where
  domains : List String := []

inductive DataDomain where
  | pii | financial | medical | credentials | internal
  deriving DecidableEq

namespace DataDomain

def value : DataDomain → String
  | pii => "pii"
  | financial => "financial"
  | medical => "medical"
  | credentials => "credentials"
  | internal => "internal"

def all : List DataDomain := [pii, financial, medical, credentials, internal]

theorem mem_all (d : DataDomain) : d ∈ all := by
  cases d <;> decide

end DataDomain

/-- The manifest with all that the validator reads. -/
structure CapabilityManifest extends SkillManifest where
  skillId : String
  name : String
  version : String
  network : NetworkScope := {}
  commands : CommandScope := {}
  data : DataScope := {}

/-- `*.example.com` is for `sub.example.com`. -/
def belowWildcard (pat domain : List Char) : Bool := ['*', '.'].isPrefixOf pat && (pat.drop 1).isSuffixOf domain

/-- A pattern and a domain, both in lower case. -/
def matchesPattern (pat domain : List Char) : Bool := pat == domain || belowWildcard pat domain

def NetworkScope.isDomainAllowed (lower : String → String) (scope : NetworkScope) (domain : String) : Bool :=
  scope.allowAll || scope.allowedDomains.any fun pattern => matchesPattern (lower pattern).toList (lower domain).toList

/-! ## The validator -/

structure ManifestValidator where
  requireManifest : Bool := true
  maxNetworkDomains : Int := 50
  maxFilePaths : Int := 20
  maxCommands : Int := 10
  /-- In lower case, as `init` leaves them. -/
  blockedDomains : List String := []
  blockedCommands : List String := []

namespace ManifestValidator

def init (lower : String → String) (requireManifest : Bool) (maxNetworkDomains maxFilePaths maxCommands : Int)
    (blockedDomains blockedCommands : Option (List String)) : ManifestValidator where
  requireManifest := requireManifest
  maxNetworkDomains := maxNetworkDomains
  maxFilePaths := maxFilePaths
  maxCommands := maxCommands
  blockedDomains := (blockedDomains.getD []).map lower
  blockedCommands := blockedCommands.getD []

/-- A field that may not be empty. -/
def checkPresent (field value : String) : List String := if value = "" then [s!"Missing {field}"] else []

def checkCount (what : String) (limit : Int) (entries : List String) : List String :=
  if limit < entries.length then [s!"Too many {what}: {entries.length} > {limit}"] else []

/-- One violation for each entry that is refused. -/
def checkEach (refused : String → Bool) (message : String) (entries : List String) : List String :=
  (entries.filter refused).map fun entry => s!"{message}: {entry}"

variable (lower : String → String)

def violations (v : ManifestValidator) (m : CapabilityManifest) : List String :=
  checkPresent "skill_id" m.skillId ++ checkPresent "name" m.name ++ checkPresent "version" m.version ++
  checkCount "network domains" v.maxNetworkDomains m.network.allowedDomains ++
  checkEach (fun domain => v.blockedDomains.contains (lower domain)) "Blocked domain in network scope"
    m.network.allowedDomains ++
  checkCount "file paths" v.maxFilePaths m.filesystem.allowedPaths ++
  checkEach (fun path => isSubstring ['.', '.'] path.toList) "Path traversal detected" m.filesystem.allowedPaths ++
  checkCount "commands" v.maxCommands m.commands.allowedCommands ++
  checkEach v.blockedCommands.contains "Blocked command in manifest" m.commands.allowedCommands ++
  checkEach (fun d => !(DataDomain.all.map DataDomain.value).contains d) "Unknown data domain" m.data.domains

def validate (v : ManifestValidator) : Option CapabilityManifest → Except PyError (List String)
  | none =>
    if v.requireManifest then
      .error (.other "ManifestRequiredError" "Skill manifest is required. Skills without manifests are rejected.")
    else .ok []
  | some m => .ok (v.violations lower m)

/-- The domain is on the blocked list, or below an entry of it. -/
def Covers (v : ManifestValidator) (domain : String) : Prop :=
  ∃ entry ∈ v.blockedDomains, matchesPattern entry.toList (lower domain).toList = true

end ManifestValidator

/-! ## Patterns that meet -/

theorem matchesPattern_self (pat : List Char) : matchesPattern pat pat = true := by simp [matchesPattern]

theorem matchesPattern_iff {pat domain : List Char} :
    matchesPattern pat domain = true ↔ pat = domain ∨ (['*', '.'] <+: pat ∧ pat.drop 1 <:+ domain) := by
  simp [matchesPattern, belowWildcard]

/-- Two patterns have a domain in common just when one of them matches the other. -/
theorem patterns_meet_iff (p q : List Char) :
    (∃ domain, matchesPattern p domain = true ∧ matchesPattern q domain = true) ↔
      matchesPattern p q = true ∨ matchesPattern q p = true := by
  constructor
  · rintro ⟨domain, hp, hq⟩
    rcases matchesPattern_iff.mp hp with rfl | ⟨hstar, hsuffix⟩
    · exact .inr hq
    · rcases matchesPattern_iff.mp hq with rfl | ⟨hstar', hsuffix'⟩
      · exact .inl hp
      · have hdrop (pat : List Char) : pat.drop 1 <:+ pat := List.drop_suffix 1 pat
        rcases List.suffix_or_suffix_of_suffix hsuffix hsuffix' with h | h
        · exact .inl (matchesPattern_iff.mpr (.inr ⟨hstar, h.trans (hdrop q)⟩))
        · exact .inr (matchesPattern_iff.mpr (.inr ⟨hstar', h.trans (hdrop p)⟩))
  · rintro (h | h)
    · exact ⟨q, h, matchesPattern_self q⟩
    · exact ⟨p, matchesPattern_self p, h⟩

/-! ## Scopes without contradiction -/

namespace ManifestValidator

variable {lower : String → String}

/-- No domain that the validator blocks is in the scope. -/
def Consistent (lower : String → String) (v : ManifestValidator) (m : CapabilityManifest) : Prop :=
  ∀ domain, v.Covers lower domain → m.network.isDomainAllowed lower domain = false

/-- No entry of the scope is below a blocked wildcard, and no blocked entry below a wildcard of the scope. -/
def Apart (lower : String → String) (v : ManifestValidator) (m : CapabilityManifest) : Prop :=
  ∀ pattern ∈ m.network.allowedDomains, ∀ entry ∈ v.blockedDomains,
    belowWildcard (lower pattern).toList entry.toList = false ∧ belowWildcard entry.toList (lower pattern).toList = false

theorem checkEach_eq_nil_iff {refused : String → Bool} {message : String} {entries : List String} :
    checkEach refused message entries = [] ↔ ∀ entry ∈ entries, refused entry = false := by
  simp [checkEach]

/-- What the check of the blocked list is worth: an accepted scope has none of its entries. -/
theorem not_blocked_of_validate {v : ManifestValidator} {m : CapabilityManifest} (h : v.validate lower (some m) = .ok []) :
    ∀ pattern ∈ m.network.allowedDomains, lower pattern ∉ v.blockedDomains := by
  have hnone : v.violations lower m = [] := Except.ok.inj h
  simp only [violations, List.append_eq_nil_iff, checkEach_eq_nil_iff] at hnone
  obtain ⟨⟨⟨⟨⟨⟨-, hblocked⟩, -⟩, -⟩, -⟩, -⟩, -⟩ := hnone
  intro pattern hpattern
  simpa using hblocked pattern hpattern

variable {v : ManifestValidator} {m : CapabilityManifest}

theorem consistent_of_apart (hnot : ∀ pattern ∈ m.network.allowedDomains, lower pattern ∉ v.blockedDomains)
    (hall : m.network.allowAll = false ∨ v.blockedDomains = []) (hapart : Apart lower v m) : Consistent lower v m := by
  rintro domain ⟨entry, hentry, hcovers⟩
  have hall' : m.network.allowAll = false := hall.resolve_right (List.ne_nil_of_mem hentry)
  unfold NetworkScope.isDomainAllowed
  rw [hall', Bool.false_or, List.any_eq_false]
  intro pattern hpattern hallowed
  obtain ⟨hscope, hblocked⟩ := hapart pattern hpattern entry hentry
  have hne : lower pattern ≠ entry := fun heq => hnot pattern hpattern (heq ▸ hentry)
  have hdiffer : ((lower pattern).toList == entry.toList) = false ∧ (entry.toList == (lower pattern).toList) = false := by
    simp [String.toList_inj, hne, Ne.symm hne]
  rcases (patterns_meet_iff _ _).mp ⟨_, hallowed, hcovers⟩ with h | h
  · rw [matchesPattern, hdiffer.1, hscope] at h
    cases h
  · rw [matchesPattern, hdiffer.2, hblocked] at h
    cases h

/-- Each entry, as it was written, is a domain that it covers itself. -/
theorem apart_of_consistent {raw : List String} (hraw : v.blockedDomains = raw.map lower) (h : Consistent lower v m) :
    (m.network.allowAll = false ∨ v.blockedDomains = []) ∧ Apart lower v m := by
  have hwritten : ∀ entry ∈ v.blockedDomains, ∃ domain, lower domain = entry := by
    intro entry hentry
    rw [hraw] at hentry
    obtain ⟨domain, -, hdomain⟩ := List.mem_map.mp hentry
    exact ⟨domain, hdomain⟩
  constructor
  · cases hblocked : v.blockedDomains with
    | nil => exact .inr rfl
    | cons entry rest =>
      have hentry : entry ∈ v.blockedDomains := hblocked ▸ List.mem_cons_self
      obtain ⟨domain, rfl⟩ := hwritten entry hentry
      have hrefused := h domain ⟨_, hentry, matchesPattern_self _⟩
      exact .inl (Bool.or_eq_false_iff.mp hrefused).1
  · intro pattern hpattern entry hentry
    obtain ⟨domain, rfl⟩ := hwritten entry hentry
    have hscope (d : String) (hcovers : v.Covers lower d) :
        matchesPattern (lower pattern).toList (lower d).toList = false := by
      have hnone := (Bool.or_eq_false_iff.mp (h d hcovers)).2
      simpa using List.any_eq_false.mp hnone pattern hpattern
    constructor
    · exact (Bool.or_eq_false_iff.mp (hscope domain ⟨_, hentry, matchesPattern_self _⟩)).2
    · rw [← Bool.not_eq_true]
      intro hbelow
      have hcovers : v.Covers lower pattern := ⟨_, hentry, by rw [matchesPattern, hbelow, Bool.or_true]⟩
      exact Bool.false_ne_true ((hscope pattern hcovers).symm.trans (matchesPattern_self _))

/-- An accepted manifest allows no blocked domain just when it does not allow all, with something blocked, and no entry of
the one list is below a wildcard of the other. -/
theorem consistent_iff (lower : String → String) (requireManifest : Bool) (maxNetworkDomains maxFilePaths maxCommands : Int)
    (blockedDomains blockedCommands : Option (List String)) (m : CapabilityManifest)
    (hvalid : (init lower requireManifest maxNetworkDomains maxFilePaths maxCommands blockedDomains
      blockedCommands).validate lower (some m) = .ok []) :
    Consistent lower (init lower requireManifest maxNetworkDomains maxFilePaths maxCommands blockedDomains
        blockedCommands) m ↔
      (m.network.allowAll = false ∨ blockedDomains.getD [] = []) ∧
        Apart lower (init lower requireManifest maxNetworkDomains maxFilePaths maxCommands blockedDomains
          blockedCommands) m := by
  have hnil : (init lower requireManifest maxNetworkDomains maxFilePaths maxCommands blockedDomains
      blockedCommands).blockedDomains = [] ↔ blockedDomains.getD [] = [] := List.map_eq_nil_iff
  constructor
  · intro h
    obtain ⟨hall, hapart⟩ := apart_of_consistent rfl h
    exact ⟨hall.imp_right hnil.mp, hapart⟩
  · rintro ⟨hall, hapart⟩
    exact consistent_of_apart (not_blocked_of_validate hvalid) (hall.imp_right hnil.mpr) hapart

def asciiLower (s : String) : String := String.ofList (Text.lower s.toList)

/-- With the defaults, and one blocked domain. -/
def blocking (domain : String) : ManifestValidator := init asciiLower true 50 20 10 (some [domain]) none

def wildcardManifest : CapabilityManifest where
  skillId := "mailer"
  name := "Mailer"
  version := "1.0"
  network := { allowedDomains := ["*.example.com"] }

theorem wildcardManifest_valid : (blocking "evil.example.com").validate asciiLower (some wildcardManifest) = .ok [] := by
  decide +kernel

theorem consistent_iff_wildcard :
    Consistent asciiLower (blocking "evil.example.com") wildcardManifest ↔
      (wildcardManifest.network.allowAll = false ∨ (some ["evil.example.com"]).getD [] = []) ∧
        Apart asciiLower (blocking "evil.example.com") wildcardManifest :=
  consistent_iff asciiLower true 50 20 10 (some ["evil.example.com"]) none wildcardManifest wildcardManifest_valid

/-- The scope's wildcard lets the blocked domain through. -/
theorem blocked_domain_allowed :
    ¬ ∀ (lower : String → String) (requireManifest : Bool) (maxNetworkDomains maxFilePaths maxCommands : Int)
      (blockedDomains blockedCommands : Option (List String)) (m : CapabilityManifest),
      (init lower requireManifest maxNetworkDomains maxFilePaths maxCommands blockedDomains
        blockedCommands).validate lower (some m) = .ok [] →
      Consistent lower (init lower requireManifest maxNetworkDomains maxFilePaths maxCommands blockedDomains
        blockedCommands) m := by
  intro h
  have hconsistent := h asciiLower true 50 20 10 (some ["evil.example.com"]) none wildcardManifest wildcardManifest_valid
  have hcovers : (blocking "evil.example.com").Covers asciiLower "evil.example.com" :=
    ⟨"evil.example.com", by decide +kernel, by decide +kernel⟩
  exact absurd (hconsistent "evil.example.com" hcovers) (by decide +kernel)

end ManifestValidator

end Occp.Skills
