import Occp.Lib.Digests
import Occp.Re

/-!
# Installing MCP packages (`security/supply_chain.py`)

An install is gated by an allow list, a scan of the manifest and a signature. `sha256` is the hex digest of a text.
-/

namespace Occp.Security

open Lib (Regex)
open Re (Pattern text among spaces anySpaces words ignoreCase)

/-! ## The allow list -/

structure PackageEntry where
  publisher : String := ""
  risk : String := "unknown"

def mcpAllowlist : Dict PackageEntry :=
  [("@anthropic/mcp-filesystem", ⟨"anthropic", "low"⟩), ("@anthropic/mcp-github", ⟨"anthropic", "low"⟩),
    ("@anthropic/mcp-postgres", ⟨"anthropic", "medium"⟩), ("@anthropic/mcp-sqlite", ⟨"anthropic", "low"⟩),
    ("@anthropic/mcp-memory", ⟨"anthropic", "low"⟩)]

def suspiciousPatterns : List Pattern :=
  [ -- typosquatting
    ⟨"anthroplc|anthr0pic|anthropik", ignoreCase (words "anthroplc" ["anthr0pic", "anthropik"])⟩,
    -- path traversal
    ⟨"\\.\\.\\/|\\.\\.\\\\", ignoreCase (words "../" ["..\\"])⟩,
    -- non-ASCII (homoglyph)
    ⟨"[^\\x00-\\x7F]", .chars fun c => 0x7F < c.toNat⟩,
    -- code injection
    ⟨"(eval|exec|spawn|child_process|require\\()",
      ignoreCase (words "eval" ["exec", "spawn", "child_process", "require("])⟩,
    -- destructive cmds
    ⟨"(rm\\s+-rf|del\\s+/|format\\s+c:)",
      ignoreCase (.anyOf (.sequence [text "rm", spaces, text "-rf"])
        [.sequence [text "del", spaces, text "/"], .sequence [text "format", spaces, text "c:"]])⟩]

structure PackageCheckResult where
  allowed : Bool
  package : String
  reason : String := ""
  riskLevel : String := "unknown"
  publisher : String := ""
  warnings : List String := []

structure PackageAllowlist where
  allowlist : Dict PackageEntry := mcpAllowlist

def PackageAllowlist.withExtra (extraAllowed : Dict PackageEntry) : PackageAllowlist where
  allowlist := mcpAllowlist.setAll extraAllowed

variable (u : Unicode)

def found (text : String) (p : Pattern) : Bool := (Re.search u p.regex text.toList).isSome

def PackageAllowlist.check (a : PackageAllowlist) (package : String) : PackageCheckResult :=
  match suspiciousPatterns.find? (found u package) with
  | some p =>
    { allowed := false, package, reason := s!"Suspicious pattern detected: {p.source}", riskLevel := "critical"
      warnings := ["Package name matches known attack pattern"] }
  | none =>
    match a.allowlist.get? package with
    | none =>
      { allowed := false, package, reason := s!"Package '{package}' not in curated allowlist", riskLevel := "high"
        warnings := ["Unlisted packages require manual security review"] }
    | some entry =>
      let warnings := if entry.risk = "medium" then ["Medium-risk package — monitor for data access patterns"] else []
      { allowed := true, package, riskLevel := entry.risk, publisher := entry.publisher, warnings }

/-! ## The static scan -/

/-- Compiled with `re.I`. -/
def staticRiskPatterns : List (String × Regex Char) :=
  [("postinstall_script", .sequence [words "postinstall" ["preinstall"], anySpaces, text ":"]),
    ("network_access",
      .sequence [words "http" ["https", "ftp", "ws"], text "://", .rep (fun c => !Text.isSpace c) 1 none]),
    ("filesystem_write",
      .anyOf (text "writeFile") [text "appendFile", text "fs.write",
        .sequence [text "open(", .rep Re.dot 1 none, text ",", anySpaces, .chars (among "'\""), text "w"]]),
    ("code_execution", words "eval" ["Function(", "exec(", "subprocess", "os.system"]),
    ("env_access", words "process.env" ["os.environ", "getenv("])]

structure StaticScanResult where
  passed : Bool
  package : String
  risksFound : List String := []
  detail : String := ""

def staticScanManifest (package manifestContent : String) : StaticScanResult :=
  let risks := (staticRiskPatterns.filter fun e => (Re.search u (ignoreCase e.2) manifestContent.toList).isSome).map (·.1)
  if risks.isEmpty then { passed := true, package }
  else
    let listed := ", ".intercalate risks
    { passed := false, package, risksFound := risks, detail := s!"Static scan detected {risks.length} risk pattern(s): {listed}" }

/-! ## The signature -/

structure SignatureVerifyResult where
  verified : Bool
  package : String
  reason : String := ""

variable (sha256 : String → String)

def expectedPrefix (package publicKey : String) : List Char := (sha256 s!"{package}:{publicKey}").toList.take 16

/-- `""` counts as no signature and as no key. -/
def verifyPackageSignature (package : String) (signature publicKey : Option String) : SignatureVerifyResult :=
  match signature.filter (· ≠ "") with
  | none => { verified := false, package, reason := "No signature provided — fail-closed policy" }
  | some signature =>
    match publicKey.filter (· ≠ "") with
    | none => { verified := false, package, reason := "No public key available for publisher — fail-closed policy" }
    | some publicKey =>
      if (expectedPrefix sha256 package publicKey).isPrefixOf signature.toList then { verified := true, package }
      else { verified := false, package, reason := "Signature mismatch — package may have been tampered with" }

/-! ## The scanner -/

structure SupplyChainScanner where
  packageChecker : PackageAllowlist := {}

/-- A failed signature check only adds a warning. -/
def SupplyChainScanner.scanMcpInstall (s : SupplyChainScanner) (package manifestContent : String)
    (signature publicKey : Option String) : PackageCheckResult :=
  let result := s.packageChecker.check u package
  if !result.allowed then result
  else
    let scan := staticScanManifest u package manifestContent
    if manifestContent ≠ "" ∧ scan.passed = false then
      { allowed := false, package, reason := s!"Static scan failed: {scan.detail}", riskLevel := "high"
        warnings := scan.risksFound }
    else
      let sigResult := verifyPackageSignature sha256 package signature publicKey
      if !sigResult.verified then { result with warnings := result.warnings ++ [s!"Signature: {sigResult.reason}"] }
      else result

/-! ## What each check says -/

variable {u sha256} {package manifestContent : String} {signature publicKey : Option String}

/-- The package is on the list, and nothing in its name is suspicious. -/
def PackageAllowlist.Lists (u : Unicode) (a : PackageAllowlist) (package : String) : Prop :=
  (∃ entry, a.allowlist.get? package = some entry) ∧ ∀ p ∈ suspiciousPatterns, found u package p = false

theorem PackageAllowlist.check_allowed {a : PackageAllowlist} :
    (a.check u package).allowed = true ↔ a.Lists u package := by
  unfold PackageAllowlist.check Lists
  cases hfind : suspiciousPatterns.find? (found u package) with
  | some p =>
    have hmem := List.mem_of_find?_eq_some hfind
    have hfound := List.find?_some hfind
    simp
    intro _ _
    exact ⟨p, hmem, hfound⟩
  | none =>
    rw [List.find?_eq_none] at hfind
    cases hget : a.allowlist.get? package with
    | none => simp
    | some entry => simpa using hfind

/-- The manifest holds something that the scan reports. -/
def Risky (u : Unicode) (manifestContent : String) : Prop :=
  ∃ e ∈ staticRiskPatterns, (Re.search u (ignoreCase e.2) manifestContent.toList).isSome = true

variable (package) in
theorem staticScanManifest_passed : (staticScanManifest u package manifestContent).passed = false ↔ Risky u manifestContent := by
  unfold staticScanManifest Risky
  dsimp only
  split
  · next h =>
    simp only [List.isEmpty_iff, List.map_eq_nil_iff, List.filter_eq_nil_iff] at h
    simpa using h
  · next h =>
    simp only [List.isEmpty_iff, List.map_eq_nil_iff, List.filter_eq_nil_iff, not_forall, not_not] at h
    obtain ⟨e, he, hfound⟩ := h
    exact iff_of_true rfl ⟨e, he, hfound⟩

/-- Signature and key are there, and the signature starts with what the key asks for. -/
def Signed (sha256 : String → String) (package : String) (signature publicKey : Option String) : Prop :=
  ∃ s k, signature = some s ∧ s ≠ "" ∧ publicKey = some k ∧ k ≠ "" ∧ expectedPrefix sha256 package k <+: s.toList

theorem verifyPackageSignature_verified :
    (verifyPackageSignature sha256 package signature publicKey).verified = true ↔
      Signed sha256 package signature publicKey := by
  unfold verifyPackageSignature Signed
  split
  · next h =>
    rw [Option.filter_eq_none_iff] at h
    simp
    intro s hs hne
    simp [hs, hne] at h
  · next s h =>
    obtain ⟨rfl, hs⟩ := Option.filter_eq_some_iff.mp h
    split
    · next hk =>
      rw [Option.filter_eq_none_iff] at hk
      simp
      intro _ k hkey hne
      simp [hkey, hne] at hk
    · next k hk =>
      obtain ⟨rfl, hkey⟩ := Option.filter_eq_some_iff.mp hk
      have hsne : s ≠ "" := of_decide_eq_true hs
      have hkne : k ≠ "" := of_decide_eq_true hkey
      split
      · next hfits => simpa [hsne, hkne] using hfits
      · next hfits => simpa [hsne, hkne] using hfits

/-! ## The gate -/

namespace SupplyChainScanner

variable {s : SupplyChainScanner}

/-- What the scanner lets pass is listed, has no risky manifest, and is signed; nothing is signed without signature and key. -/
def FailClosed (u : Unicode) (sha256 : String → String) (s : SupplyChainScanner) (package manifestContent : String)
    (signature publicKey : Option String) : Prop :=
  ((s.scanMcpInstall u sha256 package manifestContent signature publicKey).allowed = true →
    (∃ entry, s.packageChecker.allowlist.get? package = some entry) ∧
      (manifestContent ≠ "" → (staticScanManifest u package manifestContent).passed = true) ∧
      (verifyPackageSignature sha256 package signature publicKey).verified = true) ∧
  ((signature = none ∨ signature = some "" ∨ publicKey = none ∨ publicKey = some "") →
    (verifyPackageSignature sha256 package signature publicKey).verified = false)

theorem scanMcpInstall_allowed :
    (s.scanMcpInstall u sha256 package manifestContent signature publicKey).allowed = true ↔
      s.packageChecker.Lists u package ∧ ¬ (manifestContent ≠ "" ∧ Risky u manifestContent) := by
  unfold scanMcpInstall
  dsimp only
  rw [← PackageAllowlist.check_allowed, ← staticScanManifest_passed package]
  by_cases hlisted : (s.packageChecker.check u package).allowed = true
  · simp only [hlisted, Bool.not_true, Bool.false_eq_true, if_false, true_and]
    split
    · next hrisky => simp [hrisky]
    · next hfine => split <;> simp [hlisted, hfine]
  · simp [hlisted]

/-- **An install fails closed just when it is refused before its signature matters, or signed.** -/
theorem failClosed_iff (u : Unicode) (sha256 : String → String) (s : SupplyChainScanner) (package manifestContent : String)
    (signature publicKey : Option String) :
    FailClosed u sha256 s package manifestContent signature publicKey ↔
      ¬ s.packageChecker.Lists u package ∨ (manifestContent ≠ "" ∧ Risky u manifestContent) ∨
        Signed sha256 package signature publicKey := by
  unfold FailClosed
  have hmissing : (signature = none ∨ signature = some "" ∨ publicKey = none ∨ publicKey = some "") →
      (verifyPackageSignature sha256 package signature publicKey).verified = false := by
    intro h
    rw [← Bool.not_eq_true, verifyPackageSignature_verified]
    rintro ⟨sig, key, hsig, hsigne, hkey, hkeyne, -⟩
    simp [hsig, hsigne, hkey, hkeyne] at h
  rw [and_iff_left hmissing, scanMcpInstall_allowed, verifyPackageSignature_verified]
  constructor
  · intro h
    by_cases hlisted : s.packageChecker.Lists u package
    · by_cases hrisky : manifestContent ≠ "" ∧ Risky u manifestContent
      · exact .inr (.inl hrisky)
      · exact .inr (.inr (h ⟨hlisted, hrisky⟩).2.2)
    · exact .inl hlisted
  · rintro h ⟨hlisted, hfine⟩
    have hsigned := (h.resolve_left (not_not_intro hlisted)).resolve_left hfine
    refine ⟨hlisted.1, fun hgiven => ?_, hsigned⟩
    rw [← Bool.not_eq_false, staticScanManifest_passed]
    exact fun hrisky => hfine ⟨hgiven, hrisky⟩

/-- A listed package is installed without a signature. -/
theorem unsigned_package_installs :
    ¬ ∀ (u : Unicode) (sha256 : String → String) (s : SupplyChainScanner) (package manifestContent : String)
      (signature publicKey : Option String), FailClosed u sha256 s package manifestContent signature publicKey := by
  intro h
  have hallowed : (({} : SupplyChainScanner).scanMcpInstall .ascii Lib.sampleDigest "@anthropic/mcp-github" "" none none).allowed = true := by
    decide +kernel
  exact absurd ((h .ascii Lib.sampleDigest {} "@anthropic/mcp-github" "" none none).1 hallowed).2.2 (by decide)

end SupplyChainScanner

end Occp.Security
