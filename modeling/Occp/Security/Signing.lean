import Mathlib.Data.Rat.Floor
import Occp.Lib.Rounding
import Occp.Errors

/-!
# Artifact signing (`security/signing.py`)

Over any kind of bytes, with the libraries as parameters. `verify` is given the time that it reads from the
clock, and times are exact.
-/

namespace Occp.Security

/-! ## Libraries -/

/-- `cryptography`: `verify` raises when the signature does not fit or the public key is none. -/
structure Ed25519 (Bytes : Type) where
  isPrivateKey : Bytes → Bool
  publicKey : Bytes → Bytes
  sign : (privateKey content : Bytes) → Bytes
  verify : (publicKey signature content : Bytes) → Except PyError Unit

/-- `hashlib`, `hmac`, `base64`, and `cryptography` when it can be imported. -/
structure Libraries (Bytes : Type) where
  sha256 : Bytes → Bytes
  hex : Bytes → String
  hmac : (key message : Bytes) → Bytes
  b64encode : Bytes → String
  b64decode : String → Except PyError Bytes
  ed25519 : Option (Ed25519 Bytes)

variable {Bytes : Type} (lib : Libraries Bytes)

namespace Libraries

/-- The public key of a private key. Without `cryptography` it is a digest. -/
def publicBytes (privateKey : Bytes) : Bytes :=
  match lib.ed25519 with
  | some ed => ed.publicKey privateKey
  | none => lib.sha256 privateKey

def sigBytes (privateKey content : Bytes) : Bytes :=
  match lib.ed25519 with
  | some ed => ed.sign privateKey content
  | none => lib.hmac privateKey content

def keyIdOf (publicKey : Bytes) : String := String.ofList ((lib.hex (lib.sha256 publicKey)).toList.take 16)

end Libraries

/-! ## Keys -/

structure KeyPair where
  privateKey : String
  publicKey : String
  keyId : String := ""

/-- `secret` is the random private key. -/
def KeyPair.generate (secret : Bytes) (keyId : String) : KeyPair where
  privateKey := lib.b64encode secret
  publicKey := lib.b64encode (lib.publicBytes secret)
  keyId := if keyId = "" then lib.keyIdOf (lib.publicBytes secret) else keyId

structure SignatureEnvelope where
  payloadHash : String
  signature : String
  keyId : String
  timestamp : Rat
  algorithm : String := "ed25519"

/-! ## The signer -/

structure ArtifactSigner (Bytes : Type) where
  keyId : String
  privBytes : Bytes
  algorithm : String

namespace ArtifactSigner

def ofKey (privateKeyB64 keyId : String) : Except PyError (ArtifactSigner Bytes) :=
  match lib.b64decode privateKeyB64 with
  | .error e => .error e
  | .ok privBytes =>
    let keyId := if keyId = "" then lib.keyIdOf (lib.publicBytes privBytes) else keyId
    match lib.ed25519 with
    | none => .ok { keyId, privBytes, algorithm := "hmac-sha256" }
    | some ed =>
      if ed.isPrivateKey privBytes then .ok { keyId, privBytes, algorithm := "ed25519" }
      else .error (.valueError "An Ed25519 private key is 32 bytes long")

def sign (s : ArtifactSigner Bytes) (content : Bytes) (now : Rat) : SignatureEnvelope where
  payloadHash := lib.hex (lib.sha256 content)
  signature := lib.b64encode (lib.sigBytes s.privBytes content)
  keyId := s.keyId
  timestamp := now
  algorithm := s.algorithm

end ArtifactSigner

/-! ## The verifier -/

structure VerificationResult where
  valid : Bool
  keyId : String := ""
  reason : String := ""
  payloadHash : String := ""
  algorithm : String := ""
  warnings : List String := []

structure SignatureVerifier where
  trustedKeys : Dict String := []
  maxAgeSeconds : Rat := 86400 * 365

/-- `format(q, ".0f")`. -/
def wholeSeconds (q : Rat) : String :=
  let n := toString (Lib.roundHalfEven |q|)
  if q < 0 then "-" ++ n else n

namespace SignatureVerifier

variable (v : SignatureVerifier)

def addTrustedKey (keyId publicKeyB64 : String) : SignatureVerifier :=
  { v with trustedKeys := v.trustedKeys.set keyId publicKeyB64 }

variable [DecidableEq Bytes]

/-- The cryptographic part of `verify`: the reason for which the signature is refused. -/
def checkSignature (algorithm : String) (pubBytes sigBytes content : Bytes) : Except String Unit :=
  let other : Except String Unit :=
    if algorithm = "hmac-sha256" then
      if sigBytes = lib.hmac pubBytes content then .ok () else .error "HMAC signature mismatch"
    else .error s!"Unsupported algorithm: {algorithm}"
  match lib.ed25519 with
  | some ed =>
    if algorithm = "ed25519" then
      match ed.verify pubBytes sigBytes content with
      | .ok () => .ok ()
      | .error exc => .error s!"Ed25519 signature invalid: {exc.str}"
    else other
  | none => other

def verify (content : Bytes) (envelope : SignatureEnvelope) (expectedKeyId : String) (now : Rat) :
    Except PyError VerificationResult :=
  let keyId := envelope.keyId
  let algorithm := envelope.algorithm
  if expectedKeyId ≠ "" ∧ keyId ≠ expectedKeyId then
    .ok { valid := false, keyId, reason := s!"Key ID mismatch: expected={expectedKeyId}, got={keyId}", algorithm }
  else
    let actualHash := lib.hex (lib.sha256 content)
    if actualHash ≠ envelope.payloadHash then
      .ok { valid := false, keyId, reason := "Payload hash mismatch — content tampered", payloadHash := actualHash, algorithm }
    else
      let age := now - envelope.timestamp
      if v.maxAgeSeconds < age then
        let reason := s!"Signature expired: age={wholeSeconds age}s > max={wholeSeconds v.maxAgeSeconds}s"
        .ok { valid := false, keyId, reason, payloadHash := actualHash, algorithm }
      else
        let warnings := if age < 0 then ["Signature timestamp is in the future"] else []
        match v.trustedKeys.get? keyId with
        | none =>
          .ok { valid := false, keyId, reason := s!"No trusted key found for key_id={keyId}", payloadHash := actualHash, algorithm }
        | some pubB64 =>
          match lib.b64decode envelope.signature, lib.b64decode pubB64 with
          | .error e, _ => .error e
          | .ok _, .error e => .error e
          | .ok sigBytes, .ok pubBytes =>
            match checkSignature lib algorithm pubBytes sigBytes content with
            | .error reason => .ok { valid := false, keyId, reason, payloadHash := actualHash, algorithm }
            | .ok () => .ok { valid := true, keyId, payloadHash := actualHash, algorithm, warnings }

theorem checkSignature_iff {lib : Libraries Bytes} {algorithm : String} {pubBytes sigBytes content : Bytes} :
    checkSignature lib algorithm pubBytes sigBytes content = .ok () ↔
      (algorithm = "hmac-sha256" ∧ sigBytes = lib.hmac pubBytes content) ∨
        (algorithm = "ed25519" ∧ ∃ ed, lib.ed25519 = some ed ∧ ed.verify pubBytes sigBytes content = .ok ()) := by
  unfold checkSignature
  dsimp only
  have hne : "ed25519" ≠ "hmac-sha256" := by decide
  cases hed : lib.ed25519 with
  | none =>
    dsimp only
    by_cases hmac : algorithm = "hmac-sha256"
    · rw [if_pos hmac]
      by_cases hfits : sigBytes = lib.hmac pubBytes content
      · simp [hmac, hfits]
      · simp [hmac, hfits]
    · simp [hmac]
  | some ed =>
    dsimp only
    by_cases halg : algorithm = "ed25519"
    · rw [if_pos halg, halg]
      cases hverify : ed.verify pubBytes sigBytes content with
      | ok u => simp [hverify]
      | error exc => simp [hverify]
    · rw [if_neg halg]
      by_cases hmac : algorithm = "hmac-sha256"
      · rw [if_pos hmac]
        by_cases hfits : sigBytes = lib.hmac pubBytes content
        · simp [hmac, hfits]
        · simp [hmac, hfits]
      · simp [hmac, halg]

/-! ## What is accepted -/

def Accepts (content : Bytes) (envelope : SignatureEnvelope) (expectedKeyId : String) (now : Rat) : Prop :=
  ∃ result, v.verify lib content envelope expectedKeyId now = .ok result ∧ result.valid = true

/-- The signature passes under the trusted key that the envelope names. -/
def SignatureFits (content : Bytes) (envelope : SignatureEnvelope) : Prop :=
  ∃ pubB64 sigBytes pubBytes, v.trustedKeys.get? envelope.keyId = some pubB64 ∧
    lib.b64decode envelope.signature = .ok sigBytes ∧ lib.b64decode pubB64 = .ok pubBytes ∧
    checkSignature lib envelope.algorithm pubBytes sigBytes content = .ok ()

/-- Nothing but its age can stand against the envelope. -/
def Admits (content : Bytes) (envelope : SignatureEnvelope) (expectedKeyId : String) : Prop :=
  (expectedKeyId = "" ∨ envelope.keyId = expectedKeyId) ∧ lib.hex (lib.sha256 content) = envelope.payloadHash ∧
    v.SignatureFits lib content envelope

variable {lib v} {content : Bytes} {envelope : SignatureEnvelope} {expectedKeyId : String} {now : Rat}

theorem accepts_iff : v.Accepts lib content envelope expectedKeyId now ↔
    now - envelope.timestamp ≤ v.maxAgeSeconds ∧ v.Admits lib content envelope expectedKeyId := by
  constructor
  · rintro ⟨result, hverify, hvalid⟩
    unfold verify at hverify
    dsimp only at hverify
    split at hverify
    · cases hverify
      cases hvalid
    · next hid =>
      split at hverify
      · cases hverify
        cases hvalid
      · next hhash =>
        split at hverify
        · cases hverify
          cases hvalid
        · next hage =>
          refine ⟨not_lt.mp hage, by tauto, not_not.mp hhash, ?_⟩
          split at hverify
          · cases hverify
            cases hvalid
          · next pubB64 hget =>
            split at hverify
            · cases hverify
            · cases hverify
            · next sigBytes pubBytes hsig hpub =>
              split at hverify
              · cases hverify
                cases hvalid
              · next hcheck => exact ⟨pubB64, sigBytes, pubBytes, hget, hsig, hpub, hcheck⟩
  · rintro ⟨hage, hid, hhash, pubB64, sigBytes, pubBytes, hget, hsig, hpub, hcheck⟩
    unfold Accepts verify
    dsimp only
    rw [if_neg (by tauto), if_neg (not_not.mpr hhash), if_neg (not_lt.mpr hage), hget]
    dsimp only
    rw [hsig, hpub]
    dsimp only
    rw [hcheck]
    exact ⟨_, rfl, rfl⟩

end SignatureVerifier

end Occp.Security
