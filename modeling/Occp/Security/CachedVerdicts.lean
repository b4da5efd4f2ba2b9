import Mathlib.Data.List.Induction
import Occp.Security.RuntimeVerifier

/-!
# Verdicts from the cache (`RuntimeVerifier.verify_artifact`)

A result is cached under the id of its artifact, with the hash of the content. The envelope that it was for is
not kept, nor are the keys and the revocations of that time.
-/

namespace Occp.Security.RuntimeVerifier

variable {κ Bytes : Type} [DecidableEq Bytes] (lib : Libraries Bytes) (query : IsRevoked κ)

/-! ## Decisions -/

/-- Whether the artifact is allowed, or what the call raises. -/
def decision (rv : RuntimeVerifier κ) (now : Rat) (artifactId : String) (content : Bytes)
    (envelope : Option SignatureEnvelope) : Except PyError Bool :=
  (rv.verifyArtifact lib query now artifactId content envelope).1.map (·.allowed)

/-- What the signature and the revocations say. -/
def verdict (rv : RuntimeVerifier κ) (now : Rat) (artifactId : String) (content : Bytes)
    (envelope : Option SignatureEnvelope) : Except PyError Bool :=
  match rv.checkEnvelope lib now content envelope with
  | .error e => .error e
  | .ok (.error _) => .ok false
  | .ok (.ok _) => .ok (!decide (rv.Reports query now artifactId))

variable {lib query} {rv : RuntimeVerifier κ} {now : Rat} {artifactId : String} {content : Bytes}
  {envelope : Option SignatureEnvelope}

theorem decision_of_cached {entry : CacheEntry} (h : rv.Cached lib now artifactId content entry) :
    rv.decision lib query now artifactId content envelope = .ok entry.result.allowed := by
  unfold decision verifyArtifact
  dsimp only
  rw [getCached_of_cached h]
  rfl

omit [DecidableEq Bytes] in
theorem get?_setCached {contentHash other : String} {result : ArtifactVerificationResult} {entry : CacheEntry}
    (h : (rv.setCached now artifactId contentHash result).cache.get? other = some entry) :
    rv.cache.get? other = some entry ∨
      other = artifactId ∧ entry = { contentHash, result, expiresAt := now + rv.cacheTtl } := by
  unfold setCached at h
  rw [Dict.get?_set] at h
  split at h
  · next hsame => exact .inr ⟨hsame, (Option.some.inj h).symm⟩
  · exact .inl h

omit [DecidableEq Bytes] in
theorem get?_checkRevocation {contentHash other : String} {signatureValid : Bool} {warnings : List String}
    {entry : CacheEntry}
    (h : (rv.checkRevocation query now artifactId contentHash signatureValid warnings).2.cache.get? other = some entry) :
    rv.cache.get? other = some entry ∨
      other = artifactId ∧ entry.contentHash = contentHash ∧ entry.expiresAt = now + rv.cacheTtl ∧
        entry.result.allowed = true ∧ ¬ rv.Reports query now artifactId := by
  have hpassed {rv' : RuntimeVerifier κ} {result : ArtifactVerificationResult} (hcache : rv'.cache = rv.cache)
      (httl : rv'.cacheTtl = rv.cacheTtl) (hallowed : result.allowed = true)
      (hunreported : ¬ rv.Reports query now artifactId)
      (hget : (rv'.setCached now artifactId contentHash result).cache.get? other = some entry) :
      rv.cache.get? other = some entry ∨
        other = artifactId ∧ entry.contentHash = contentHash ∧ entry.expiresAt = now + rv.cacheTtl ∧
          entry.result.allowed = true ∧ ¬ rv.Reports query now artifactId := by
    rcases get?_setCached hget with hold | ⟨hsame, rfl⟩
    · exact .inl (hcache ▸ hold)
    · exact .inr ⟨hsame, rfl, by rw [httl], hallowed, hunreported⟩
  unfold checkRevocation at h
  cases hrevocation : rv.revocation with
  | none =>
    rw [hrevocation] at h
    exact hpassed rfl rfl rfl (by simp [Reports, hrevocation]) h
  | some checker =>
    rw [hrevocation] at h
    dsimp only at h
    split at h
    · exact .inl h
    · next hanswer => exact hpassed rfl rfl rfl (by simp [Reports, hrevocation, hanswer]) h
    · next hanswer => exact hpassed rfl rfl rfl (by simp [Reports, hrevocation, hanswer]) h

/-- What a call that the cache does not answer decides, and what it leaves in the cache. -/
theorem verify_of_not_cached (h : ∀ entry, ¬ rv.Cached lib now artifactId content entry) :
    rv.decision lib query now artifactId content envelope = rv.verdict lib query now artifactId content envelope ∧
    ∀ other entry, (rv.verifyArtifact lib query now artifactId content envelope).2.cache.get? other = some entry →
      rv.cache.get? other = some entry ∨
      other = artifactId ∧ entry.contentHash = lib.hex (lib.sha256 content) ∧
        entry.expiresAt = now + rv.cacheTtl ∧
        rv.verdict lib query now artifactId content envelope = .ok entry.result.allowed := by
  obtain ⟨cache, hget, hdropped⟩ := getCached_of_not_cached h
  have henvelope : checkEnvelope lib { rv with cache } now content envelope =
      rv.checkEnvelope lib now content envelope := by
    cases envelope <;> rfl
  unfold decision verifyArtifact verdict
  dsimp only
  rw [hget]
  dsimp only
  rw [henvelope]
  cases hcheck : rv.checkEnvelope lib now content envelope with
  | error e => exact ⟨rfl, fun other entry hentry => .inl (hdropped other entry hentry)⟩
  | ok outcome =>
    cases outcome with
    | error reason =>
      refine ⟨rfl, fun other entry hentry => ?_⟩
      rcases get?_setCached hentry with hold | ⟨hsame, rfl⟩
      · exact .inl (hdropped other entry hold)
      · exact .inr ⟨hsame, rfl, rfl, rfl⟩
    | ok passed =>
      have hallowed := checkRevocation_allowed query now artifactId { rv with cache } (lib.hex (lib.sha256 content))
        passed.1 passed.2
      refine ⟨?_, fun other entry hentry => ?_⟩
      · refine congrArg Except.ok (Bool.eq_iff_iff.mpr (hallowed.trans ?_))
        rw [Bool.not_eq_true', decide_eq_false_iff_not]
        exact Iff.rfl
      · rcases get?_checkRevocation hentry with hold | ⟨hsame, hhash, hexpires, hpasses, hunreported⟩
        · exact .inl (hdropped other entry hold)
        · refine .inr ⟨hsame, hhash, hexpires, ?_⟩
          have hclear : decide (rv.Reports query now artifactId) = false := decide_eq_false hunreported
          dsimp only
          rw [hpasses, hclear]
          rfl

theorem decision_clearCache : rv.clearCache.decision lib query now artifactId content envelope =
    rv.verdict lib query now artifactId content envelope := by
  have hempty : ∀ entry, ¬ rv.clearCache.Cached lib now artifactId content entry := by
    rintro entry ⟨hget, -⟩
    cases hget
  rw [(verify_of_not_cached hempty).1]
  cases envelope <;> rfl

/-- The verdict is a yes or a no when the envelope can be checked, and a yes when it passes and nothing is reported. -/
theorem verdict_eq_ok_iff {allowed : Bool} : rv.verdict lib query now artifactId content envelope = .ok allowed ↔
    (∀ e, rv.checkEnvelope lib now content envelope ≠ .error e) ∧
      (allowed = true ↔ rv.EnvelopePasses lib now content envelope ∧ ¬ rv.Reports query now artifactId) := by
  unfold verdict EnvelopePasses
  cases hcheck : rv.checkEnvelope lib now content envelope with
  | error e => simp
  | ok outcome =>
    cases outcome with
    | error reason => cases allowed <;> simp
    | ok passed =>
      by_cases hreports : rv.Reports query now artifactId
      · cases allowed <;> simp [hreports]
      · cases allowed <;> simp [hreports]

/-! ## Histories -/

variable (lib query) in
def Unpoisoned (rv : RuntimeVerifier κ) : VerifierCall κ Bytes → Prop
  | .verify now artifactId content envelope =>
    rv.decision lib query now artifactId content envelope =
      rv.clearCache.decision lib query now artifactId content envelope
  | _ => True

variable (lib query) in
/-- If the cache answers, the envelope can be checked, and the cached result is what the envelope and the revocations
say by now. -/
def UpToDate (rv : RuntimeVerifier κ) : VerifierCall κ Bytes → Prop
  | .verify now artifactId content envelope =>
    ∀ entry, rv.Cached lib now artifactId content entry →
      (∀ e, rv.checkEnvelope lib now content envelope ≠ .error e) ∧
        (entry.result.allowed = true ↔
          rv.EnvelopePasses lib now content envelope ∧ ¬ rv.Reports query now artifactId)
  | _ => True

theorem unpoisoned_iff (call : VerifierCall κ Bytes) : rv.Unpoisoned lib query call ↔ rv.UpToDate lib query call := by
  cases call with
  | verify now artifactId content envelope =>
    unfold Unpoisoned UpToDate
    dsimp only
    rw [decision_clearCache]
    by_cases hcached : ∃ entry, rv.Cached lib now artifactId content entry
    · obtain ⟨entry, hentry⟩ := hcached
      rw [decision_of_cached hentry, eq_comm, verdict_eq_ok_iff]
      constructor
      · intro h other hother
        cases hentry.1.symm.trans hother.1
        exact h
      · intro h
        exact h entry hentry
    · rw [not_exists] at hcached
      exact iff_of_true (verify_of_not_cached hcached).1 fun entry hentry => absurd hentry (hcached entry)
  | _ => exact Iff.rfl

/-- The call is about the artifact, and its verdict is what the entry holds. -/
structure Filled (lib : Libraries Bytes) (query : IsRevoked κ) (rv : RuntimeVerifier κ) (artifactId : String)
    (entry : CacheEntry) (now : Rat) (content : Bytes) (envelope : Option SignatureEnvelope) : Prop where
  hash : entry.contentHash = lib.hex (lib.sha256 content)
  expires : entry.expiresAt = now + rv.cacheTtl
  verdict : rv.verdict lib query now artifactId content envelope = .ok entry.result.allowed

theorem get?_step {call : VerifierCall κ Bytes} {entry : CacheEntry}
    (h : (rv.step lib query call).cache.get? artifactId = some entry) :
    rv.cache.get? artifactId = some entry ∨
      ∃ now content envelope, call = .verify now artifactId content envelope ∧
        Filled lib query rv artifactId entry now content envelope := by
  cases call with
  | verify now other content envelope =>
    by_cases hcached : ∃ entry, rv.Cached lib now other content entry
    · obtain ⟨found, hfound⟩ := hcached
      have hsame : (rv.step lib query (.verify now other content envelope)).cache = rv.cache := by
        unfold step verifyArtifact
        dsimp only
        rw [getCached_of_cached hfound]
      exact .inl (hsame ▸ h)
    · rw [not_exists] at hcached
      rcases (verify_of_not_cached hcached).2 artifactId entry h with hold | ⟨rfl, hhash, hexpires, hverdict⟩
      · exact .inl hold
      · exact .inr ⟨now, content, envelope, rfl, hhash, hexpires, hverdict⟩
  | clearCache => cases h
  | checkerChanges checker => exact .inl h
  | setRequireSignatures require => exact .inl h
  | loadTrustedKeys keys => exact .inl h
  | signatureVerifierChanges v => exact .inl h

/-- A cached result is the verdict on an earlier call, with that call's envelope, and the keys and revocations then. -/
theorem cached_from_earlier {calls : List (VerifierCall κ Bytes)} (hempty : rv.cache = []) {entry : CacheEntry}
    (h : (Lib.run (step lib query) rv calls).cache.get? artifactId = some entry) :
    ∃ before after now content envelope, calls = before ++ .verify now artifactId content envelope :: after ∧
      Filled lib query (Lib.run (step lib query) rv before) artifactId entry now content envelope := by
  induction calls using List.reverseRecOn with
  | nil =>
    change rv.cache.get? artifactId = some entry at h
    rw [hempty] at h
    cases h
  | append_singleton calls call ih =>
    rw [Lib.run_append] at h
    rcases get?_step h with hold | ⟨now, content, envelope, rfl, hfilled⟩
    · obtain ⟨before, after, now, content, envelope, rfl, hfilled⟩ := ih hold
      exact ⟨before, after ++ [call], now, content, envelope, by simp, hfilled⟩
    · exact ⟨calls, [], now, content, envelope, rfl, hfilled⟩

end Occp.Security.RuntimeVerifier
