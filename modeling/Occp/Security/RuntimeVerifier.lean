import Occp.Lib.Runs
import Occp.Security.Revocation
import Occp.Security.SignedArtifacts

/-!
# Verification at load time (`security/runtime_verifier.py`)

A cache stands in front of the signature and of the revocations. The revocation checker is any object with
`is_revoked`, and every call reads the clock once.
-/

namespace Occp.Security

structure ArtifactVerificationResult where
  allowed : Bool
  artifactId : String
  reason : String := ""
  contentHash : String := ""
  signatureValid : Bool := false
  revocationStatus : String := "unknown"
  warnings : List String := []
  cached : Bool := false

structure CacheEntry where
  contentHash : String
  result : ArtifactVerificationResult
  expiresAt : Rat

/-- `is_revoked`: an answer, or an exception, and the checker after it. -/
abbrev IsRevoked (κ : Type) := κ → Rat → String → Except PyError Bool × κ

def RevocationChecker.query : IsRevoked RevocationChecker := fun c now artifactId =>
  let (revoked, c) := c.isRevoked now artifactId
  (.ok revoked, c)

structure RuntimeVerifier (κ : Type) where
  sigVerifier : SignatureVerifier := {}
  revocation : Option κ := none
  cacheTtl : Rat := 86400
  cache : Dict CacheEntry := []
  requireSignatures : Bool := true

namespace RuntimeVerifier

variable {κ Bytes : Type} (lib : Libraries Bytes) (query : IsRevoked κ) (rv : RuntimeVerifier κ)

def setRequireSignatures (require : Bool) : RuntimeVerifier κ := { rv with requireSignatures := require }

def loadTrustedKeys (keys : Dict String) : RuntimeVerifier κ :=
  { rv with sigVerifier := keys.foldl (fun v e => v.addTrustedKey e.1 e.2) rv.sigVerifier }

def clearCache : RuntimeVerifier κ := { rv with cache := [] }

def cacheStats (now : Rat) : Nat × Nat := (rv.cache.length, rv.cache.countP fun e => e.2.expiresAt < now)

/-- A stale entry, or one of another content, is dropped. -/
def getCached (now : Rat) (artifactId contentHash : String) : Option ArtifactVerificationResult × RuntimeVerifier κ :=
  match rv.cache.get? artifactId with
  | none => (none, rv)
  | some entry =>
    if entry.expiresAt < now then (none, { rv with cache := rv.cache.pop artifactId })
    else if entry.contentHash ≠ contentHash then (none, { rv with cache := rv.cache.pop artifactId })
    else (some { entry.result with cached := true }, rv)

def setCached (now : Rat) (artifactId contentHash : String) (result : ArtifactVerificationResult) : RuntimeVerifier κ :=
  { rv with cache := rv.cache.set artifactId { contentHash, result, expiresAt := now + rv.cacheTtl } }

variable [DecidableEq Bytes]

/-- Step 2: the signature's verdict with warnings, or the reason for which the artifact is refused. -/
def checkEnvelope (now : Rat) (content : Bytes) : Option SignatureEnvelope → Except PyError (Except String (Bool × List String))
  | none =>
    if rv.requireSignatures then .ok (.error "No signature envelope — fail-closed policy")
    else .ok (.ok (false, ["No signature provided (signatures not required)"]))
  | some envelope => do
    let vr ← rv.sigVerifier.verify lib content envelope "" now
    if vr.valid then return .ok (true, vr.warnings)
    else return .error s!"Signature verification failed: {vr.reason}"

/-- Step 3, and the verdict. A revocation is not cached, and an exception of the checker only warns. -/
def checkRevocation (now : Rat) (artifactId contentHash : String) (signatureValid : Bool) (warnings : List String) :
    ArtifactVerificationResult × RuntimeVerifier κ :=
  let passed (rv : RuntimeVerifier κ) (revocationStatus : String) (warnings : List String) :=
    let result : ArtifactVerificationResult :=
      { allowed := true, artifactId, contentHash, signatureValid, revocationStatus, warnings }
    (result, rv.setCached now artifactId contentHash result)
  match rv.revocation with
  | none => passed rv "clear" warnings
  | some checker =>
    let (answer, checker) := query checker now artifactId
    let rv := { rv with revocation := some checker }
    match answer with
    | .ok true =>
      ({ allowed := false, artifactId, reason := s!"Artifact '{artifactId}' is revoked", contentHash, signatureValid
         revocationStatus := "revoked" }, rv)
    | .ok false => passed rv "clear" warnings
    | .error exc => passed rv "unknown" (warnings ++ [s!"Revocation check error: {exc.str}"])

def verifyArtifact (now : Rat) (artifactId : String) (content : Bytes) (envelope : Option SignatureEnvelope) :
    Except PyError ArtifactVerificationResult × RuntimeVerifier κ :=
  let contentHash := lib.hex (lib.sha256 content)
  match rv.getCached now artifactId contentHash with
  | (some cached, rv) => (.ok cached, rv)
  | (none, rv) =>
    match rv.checkEnvelope lib now content envelope with
    | .error e => (.error e, rv)
    | .ok (.error reason) =>
      let result : ArtifactVerificationResult := { allowed := false, artifactId, reason, contentHash }
      (.ok result, rv.setCached now artifactId contentHash result)
    | .ok (.ok (sigValid, warnings)) =>
      let (result, rv) := rv.checkRevocation query now artifactId contentHash sigValid warnings
      (.ok result, rv)

/-! ## What is allowed -/

/-- The artifact may be loaded. -/
def Allows (now : Rat) (artifactId : String) (content : Bytes) (envelope : Option SignatureEnvelope) : Prop :=
  ∃ result, (rv.verifyArtifact lib query now artifactId content envelope).1 = .ok result ∧ result.allowed = true

instance (now : Rat) (artifactId : String) (content : Bytes) (envelope : Option SignatureEnvelope) :
    Decidable (rv.Allows lib query now artifactId content envelope) :=
  match h : (rv.verifyArtifact lib query now artifactId content envelope).1 with
  | .ok result => decidable_of_iff (result.allowed = true) (by simp [Allows, h])
  | .error _ => .isFalse (by simp [Allows, h])

/-- The checker reports the artifact as revoked. -/
def Reports (now : Rat) (artifactId : String) : Prop :=
  ∃ checker, rv.revocation = some checker ∧ (query checker now artifactId).1 = .ok true

instance (now : Rat) (artifactId : String) : Decidable (rv.Reports query now artifactId) :=
  match h : rv.revocation with
  | none => .isFalse (by simp [Reports, h])
  | some checker =>
    match hanswer : (query checker now artifactId).1 with
    | .ok answer => decidable_of_iff (answer = true) (by simp [Reports, h, hanswer])
    | .error _ => .isFalse (by simp [Reports, h, hanswer])

/-- The checker raises. -/
def Raises (now : Rat) (artifactId : String) : Prop :=
  ∃ checker exc, rv.revocation = some checker ∧ (query checker now artifactId).1 = .error exc

/-- The cache answers for this content. -/
def Cached (now : Rat) (artifactId : String) (content : Bytes) (entry : CacheEntry) : Prop :=
  rv.cache.get? artifactId = some entry ∧ now ≤ entry.expiresAt ∧ entry.contentHash = lib.hex (lib.sha256 content)

/-- The signature passes, or none is asked for. -/
def EnvelopePasses (now : Rat) (content : Bytes) (envelope : Option SignatureEnvelope) : Prop :=
  ∃ verdict, rv.checkEnvelope lib now content envelope = .ok (.ok verdict)

variable {lib query rv} {now : Rat} {artifactId : String} {content : Bytes} {envelope : Option SignatureEnvelope}

omit [DecidableEq Bytes] in
theorem getCached_of_cached {entry : CacheEntry} (h : rv.Cached lib now artifactId content entry) :
    rv.getCached now artifactId (lib.hex (lib.sha256 content)) = (some { entry.result with cached := true }, rv) := by
  obtain ⟨hget, hlive, hhash⟩ := h
  simp [getCached, hget, not_lt.mpr hlive, hhash]

omit [DecidableEq Bytes] in
/-- Without an answer of the cache, the verifier is the same, but may have dropped entries of its cache. -/
theorem getCached_of_not_cached (h : ∀ entry, ¬ rv.Cached lib now artifactId content entry) :
    ∃ cache, rv.getCached now artifactId (lib.hex (lib.sha256 content)) = (none, { rv with cache }) ∧
      ∀ other entry, cache.get? other = some entry → rv.cache.get? other = some entry := by
  have hpop (other : String) (entry : CacheEntry) (hget : (rv.cache.pop artifactId).get? other = some entry) :
      rv.cache.get? other = some entry := by
    rw [Dict.get?_pop] at hget
    split at hget
    · cases hget
    · exact hget
  unfold getCached
  split
  · exact ⟨rv.cache, rfl, fun _ _ => id⟩
  · next entry hget =>
    split
    · exact ⟨_, rfl, hpop⟩
    · next hlive =>
      split
      · exact ⟨_, rfl, hpop⟩
      · next hhash => exact absurd ⟨hget, not_lt.mp hlive, not_not.mp hhash⟩ (h entry)

variable (query now artifactId) in
theorem checkRevocation_allowed (rv : RuntimeVerifier κ) (contentHash : String) (sigValid : Bool) (warnings : List String) :
    (rv.checkRevocation query now artifactId contentHash sigValid warnings).1.allowed = true ↔
      ¬ rv.Reports query now artifactId := by
  unfold checkRevocation Reports
  cases hrevocation : rv.revocation with
  | none => simp
  | some checker =>
    dsimp only
    split
    · next h => simp [h]
    · next h => simp [h]
    · next h => simp [h]

/-- **An artifact is allowed by the cache, or by its signature and a checker that does not report it.** -/
theorem allows_iff : rv.Allows lib query now artifactId content envelope ↔
    (∃ entry, rv.Cached lib now artifactId content entry ∧ entry.result.allowed = true) ∨
      ((∀ entry, ¬ rv.Cached lib now artifactId content entry) ∧ rv.EnvelopePasses lib now content envelope ∧
        ¬ rv.Reports query now artifactId) := by
  unfold Allows verifyArtifact
  dsimp only
  by_cases hcached : ∃ entry, rv.Cached lib now artifactId content entry
  · obtain ⟨entry, hentry⟩ := hcached
    have hsame {other : CacheEntry} (hother : rv.Cached lib now artifactId content other) : other = entry :=
      Option.some.inj (hother.1.symm.trans hentry.1)
    rw [getCached_of_cached hentry]
    constructor
    · rintro ⟨result, heq, hallowed⟩
      cases heq
      exact .inl ⟨entry, hentry, hallowed⟩
    · rintro (⟨other, hother, hallowed⟩ | ⟨hnone, -⟩)
      · exact ⟨_, rfl, hsame hother ▸ hallowed⟩
      · exact absurd hentry (hnone entry)
  · have hnone (entry : CacheEntry) : ¬ rv.Cached lib now artifactId content entry := fun h => hcached ⟨entry, h⟩
    obtain ⟨cache, hget, -⟩ := getCached_of_not_cached hnone
    have henvelope : checkEnvelope lib { rv with cache } now content envelope = rv.checkEnvelope lib now content envelope := by
      cases envelope <;> rfl
    rw [hget]
    dsimp only
    rw [henvelope]
    unfold EnvelopePasses
    cases hcheck : rv.checkEnvelope lib now content envelope with
    | error e => simp [hnone]
    | ok outcome =>
      cases outcome with
      | error reason => simp [hnone]
      | ok verdict =>
        have hallowed := checkRevocation_allowed query now artifactId { rv with cache } (lib.hex (lib.sha256 content))
          verdict.1 verdict.2
        simp [hnone, hallowed, Reports]

/-! ## Runs -/

end RuntimeVerifier

inductive VerifierCall (κ Bytes : Type) where
  | verify (now : Rat) (artifactId : String) (content : Bytes) (envelope : Option SignatureEnvelope)
  /-- The checker is another after this: something was revoked, the kill switch thrown, a server lost. -/
  | checkerChanges (checker : κ)
  | clearCache
  | setRequireSignatures (require : Bool)
  | loadTrustedKeys (keys : Dict String)
  | signatureVerifierChanges (v : SignatureVerifier)

namespace RuntimeVerifier

variable {κ Bytes : Type} [DecidableEq Bytes] (lib : Libraries Bytes) (query : IsRevoked κ)

def step (rv : RuntimeVerifier κ) : VerifierCall κ Bytes → RuntimeVerifier κ
  | .verify now artifactId content envelope => (rv.verifyArtifact lib query now artifactId content envelope).2
  | .checkerChanges checker => { rv with revocation := rv.revocation.map fun _ => checker }
  | .clearCache => rv.clearCache
  | .setRequireSignatures require => rv.setRequireSignatures require
  | .loadTrustedKeys keys => rv.loadTrustedKeys keys
  | .signatureVerifierChanges v => { rv with sigVerifier := v }

/-- What the checker reports, or raises about, is not allowed. -/
def Enforced (rv : RuntimeVerifier κ) : VerifierCall κ Bytes → Prop
  | .verify now artifactId content envelope =>
    rv.Reports query now artifactId ∨ rv.Raises query now artifactId →
      ¬ rv.Allows lib query now artifactId content envelope
  | _ => True

/-- Where the checker reports the artifact or raises, the cache does not answer that it is allowed; where the checker
raises, the cache answers or the signature is refused. -/
def Unbypassed (rv : RuntimeVerifier κ) : VerifierCall κ Bytes → Prop
  | .verify now artifactId content envelope =>
    rv.Reports query now artifactId ∨ rv.Raises query now artifactId →
      (∀ entry, rv.Cached lib now artifactId content entry → entry.result.allowed = false) ∧
        (rv.Raises query now artifactId →
          (∃ entry, rv.Cached lib now artifactId content entry) ∨ ¬ rv.EnvelopePasses lib now content envelope)
  | _ => True

variable {lib query} {rv : RuntimeVerifier κ} {now : Rat} {artifactId : String}

omit [DecidableEq Bytes] in
theorem not_reports_of_raises (h : rv.Raises query now artifactId) : ¬ rv.Reports query now artifactId := by
  obtain ⟨checker, exc, hchecker, hraises⟩ := h
  rintro ⟨other, hother, hreports⟩
  rw [hchecker] at hother
  cases hother
  rw [hraises] at hreports
  cases hreports

theorem enforced_iff (call : VerifierCall κ Bytes) : rv.Enforced lib query call ↔ rv.Unbypassed lib query call := by
  cases call with
  | verify now artifactId content envelope =>
    unfold Enforced Unbypassed
    dsimp only
    rw [allows_iff]
    refine imp_congr_right fun hrefused => ?_
    constructor
    · intro hnot
      refine ⟨fun entry hentry => Bool.eq_false_iff.mpr fun hallowed => hnot (.inl ⟨entry, hentry, hallowed⟩), ?_⟩
      intro hraises
      by_contra hpasses
      rw [not_or, not_exists, not_not] at hpasses
      exact hnot (.inr ⟨hpasses.1, hpasses.2, not_reports_of_raises hraises⟩)
    · rintro ⟨hcache, hsignature⟩ (⟨entry, hentry, hallowed⟩ | ⟨hnone, hpasses, hunreported⟩)
      · rw [hcache entry hentry] at hallowed
        cases hallowed
      · rcases hsignature (hrefused.resolve_left hunreported) with ⟨entry, hentry⟩ | hfails
        · exact hnone entry hentry
        · exact hfails hpasses
  | _ => exact Iff.rfl

/-- **Revocations are enforced all along a history just when nothing in it goes by the checker.** -/
theorem revocations_enforced_iff (lib : Libraries Bytes) (query : IsRevoked κ) (rv : RuntimeVerifier κ)
    (calls : List (VerifierCall κ Bytes)) :
    Lib.Admitted (step lib query) (Enforced lib query) rv calls ↔
      Lib.Admitted (step lib query) (Unbypassed lib query) rv calls :=
  Lib.admitted_congr fun _ call => enforced_iff call

/-! ## A sample -/

def sampleSigner : ArtifactSigner (List UInt8) := { keyId := "builder-1", privBytes := sampleSecret, algorithm := "ed25519" }

def sampleEnvelope : SignatureEnvelope := sampleSigner.sign (sampleLibraries true) [114] 0

def sampleChecker : RevocationChecker := .new [] 300

def sampleVerifier : RuntimeVerifier RevocationChecker := { sigVerifier := trustsBuilder, revocation := some sampleChecker }

/-- A verified artifact is revoked, and still allowed after half a minute. -/
theorem revoked_artifact_from_cache :
    ¬ ∀ (lib : Libraries (List UInt8)) (rv : RuntimeVerifier RevocationChecker)
      (calls : List (VerifierCall RevocationChecker (List UInt8))),
      Lib.Admitted (step lib RevocationChecker.query) (Enforced lib RevocationChecker.query) rv calls := by
  intro h
  have hall := h (sampleLibraries true) sampleVerifier
    [.verify 1 "tool" [114] (some sampleEnvelope), .checkerChanges (sampleChecker.revoke 30 "tool" "CVE" "" "high" 0),
      .verify 60 "tool" [114] (some sampleEnvelope)]
  exact hall.2.2.1 (.inl (by decide +kernel)) (by decide +kernel)

end RuntimeVerifier

end Occp.Security
