import Occp.Security.Signing
import Occp.Security.Vault

/-!
# Signed artifacts

What the verifier makes of the envelopes of a signer. The signature covers the content but not the timestamp, and
without `cryptography` the two sides use different keys.
-/

namespace Occp.Security

/-! ## Libraries over real bytes -/

def hexDigits (bytes : List UInt8) : String :=
  String.ofList (bytes.flatMap fun b => [Nat.digitChar (b.toNat / 16), Nat.digitChar (b.toNat % 16)])

def Libraries.ofBytes (sha256 : List UInt8 → List UInt8) (hmac : (key message : List UInt8) → List UInt8)
    (ed25519 : Option (Ed25519 (List UInt8))) : Libraries (List UInt8) where
  sha256 := sha256
  hex := hexDigits
  hmac := hmac
  b64encode := Security.b64encode
  b64decode := Security.b64decode
  ed25519 := ed25519

variable (lib : Libraries (List UInt8))

/-- Base64 is read back, and an Ed25519 signature passes under the public key of its private key. -/
structure Libraries.Correct : Prop where
  decode_encode : ∀ bytes, lib.b64decode (lib.b64encode bytes) = .ok bytes
  isPrivateKey : ∀ ed, lib.ed25519 = some ed → ∀ secret, secret.length = 32 → ed.isPrivateKey secret = true
  verify_sign : ∀ ed, lib.ed25519 = some ed → ∀ secret content, secret.length = 32 →
    ed.verify (ed.publicKey secret) (ed.sign secret content) content = .ok ()

/-- Digests have 32 bytes, no key is its own digest, and keys of one length make different tags. -/
structure Libraries.Separates : Prop where
  length_sha256 : ∀ bytes, (lib.sha256 bytes).length = 32
  sha256_ne : ∀ secret, secret.length = 32 → lib.sha256 secret ≠ secret
  hmac_key : ∀ key key' message, key.length = key'.length → lib.hmac key message = lib.hmac key' message → key = key'

/-! ## The age of a signature -/

/-- **An envelope with the bytes of a signature is refused at all times beyond the age limit just when it is not dated
later than the signature, or is refused at any time.** -/
theorem refused_when_late_iff {Bytes : Type} [DecidableEq Bytes] (lib : Libraries Bytes) (signer : ArtifactSigner Bytes)
    (v : SignatureVerifier) (content : Bytes) (t timestamp : Rat)
    (payloadHash keyId algorithm expectedKeyId : String) :
    (∀ now, t + v.maxAgeSeconds < now → ¬ v.Accepts lib content
        { signer.sign lib content t with payloadHash, keyId, timestamp, algorithm } expectedKeyId now) ↔
      timestamp ≤ t ∨ ¬ v.Admits lib content
        { signer.sign lib content t with payloadHash, keyId, timestamp, algorithm } expectedKeyId := by
  constructor
  · intro h
    by_contra hnot
    rw [not_or, not_le, not_not] at hnot
    obtain ⟨hlater, hadmits⟩ := hnot
    have hnow : t + v.maxAgeSeconds < timestamp + v.maxAgeSeconds := by linarith
    refine h _ hnow (SignatureVerifier.accepts_iff.mpr ⟨?_, hadmits⟩)
    dsimp only
    linarith
  · rintro hrefused now hlate haccepts
    obtain ⟨hage, hadmits⟩ := SignatureVerifier.accepts_iff.mp haccepts
    dsimp only at hage
    rcases hrefused with hearlier | hnever
    · linarith
    · exact hnever hadmits

/-! ## Round trip -/

/-- A verifier that trusts the pair accepts what is signed with it. -/
def RoundTrip {Bytes : Type} [DecidableEq Bytes] (lib : Libraries Bytes) (v : SignatureVerifier) (pair : KeyPair)
    (content : Bytes) (t : Rat) (expectedKeyId : String) (now : Rat) : Prop :=
  ∃ signer, ArtifactSigner.ofKey lib pair.privateKey pair.keyId = .ok signer ∧
    (v.addTrustedKey pair.keyId pair.publicKey).Accepts lib content (signer.sign lib content t) expectedKeyId now

section

variable {lib} (hc : lib.Correct) (v : SignatureVerifier) {secret : List UInt8} (hsecret : secret.length = 32)
  (keyId : String)

include hc hsecret

theorem ofKey_generate :
    ArtifactSigner.ofKey lib (KeyPair.generate lib secret keyId).privateKey (KeyPair.generate lib secret keyId).keyId =
      .ok { keyId := (KeyPair.generate lib secret keyId).keyId, privBytes := secret
            algorithm := if lib.ed25519.isSome then "ed25519" else "hmac-sha256" } := by
  have hid : (if (KeyPair.generate lib secret keyId).keyId = "" then lib.keyIdOf (lib.publicBytes secret)
      else (KeyPair.generate lib secret keyId).keyId) = (KeyPair.generate lib secret keyId).keyId := by
    unfold KeyPair.generate
    dsimp only
    split
    · split
      · rfl
      · rfl
    · rfl
  have hpriv : lib.b64decode (KeyPair.generate lib secret keyId).privateKey = .ok secret := hc.decode_encode secret
  unfold ArtifactSigner.ofKey
  rw [hpriv]
  dsimp only
  rw [hid]
  cases hed : lib.ed25519 with
  | none => rfl
  | some ed =>
    dsimp only
    rw [if_pos (hc.isPrivateKey ed hed secret hsecret)]
    rfl

/-- Only the two keys decide. -/
theorem roundTrip_iff_check (content : List UInt8) {t now : Rat} (hage : now - t ≤ v.maxAgeSeconds)
    {expectedKeyId : String}
    (hexpected : expectedKeyId = "" ∨ expectedKeyId = (KeyPair.generate lib secret keyId).keyId) :
    RoundTrip lib v (KeyPair.generate lib secret keyId) content t expectedKeyId now ↔
      SignatureVerifier.checkSignature lib (if lib.ed25519.isSome then "ed25519" else "hmac-sha256")
        (lib.publicBytes secret) (lib.sigBytes secret content) content = .ok () := by
  unfold RoundTrip
  rw [ofKey_generate hc hsecret keyId]
  constructor
  · rintro ⟨signer, hsigner, haccepts⟩
    cases hsigner
    obtain ⟨-, -, -, pubB64, sig, pub, hget, hsig, hpub, hcheck⟩ := SignatureVerifier.accepts_iff.mp haccepts
    cases (Dict.get?_set_self ..).symm.trans hget
    cases (hc.decode_encode _).symm.trans hsig
    cases (hc.decode_encode _).symm.trans hpub
    exact hcheck
  · intro hcheck
    refine ⟨_, rfl, SignatureVerifier.accepts_iff.mpr ⟨hage, hexpected.imp_right Eq.symm, rfl, ?_⟩⟩
    exact ⟨_, _, _, Dict.get?_set_self .., hc.decode_encode _, hc.decode_encode _, hcheck⟩

end

def sampleSecret : List UInt8 :=
  [76, 205, 8, 155, 40, 255, 150, 218, 157, 182, 195, 70, 236, 17, 78, 15, 91, 138, 49, 159, 53, 171, 166, 36,
    218, 140, 246, 237, 79, 184, 166, 251]

def samplePublic : List UInt8 :=
  [61, 64, 23, 195, 232, 67, 137, 90, 146, 183, 10, 167, 77, 27, 126, 188, 156, 152, 44, 207, 46, 196, 150, 140,
    192, 205, 85, 241, 42, 244, 102, 12]

def sampleSignature : List UInt8 :=
  [146, 160, 9, 169, 240, 212, 202, 184, 114, 14, 130, 11, 95, 100, 37, 64, 162, 178, 123, 84, 22, 80, 63, 143,
    179, 118, 34, 35, 235, 219, 105, 218, 8, 90, 193, 228, 62, 21, 153, 110, 69, 143, 54, 19, 208, 241, 29, 140, 56,
    123, 46, 174, 180, 48, 42, 238, 176, 13, 41, 22, 18, 187, 12, 0]

def secretDigest : List UInt8 :=
  [61, 45, 150, 130, 205, 186, 82, 150, 130, 161, 82, 246, 120, 226, 92, 108, 41, 132, 123, 242, 88, 140, 164,
    225, 179, 2, 60, 21, 121, 249, 149, 141]

def contentDigest : List UInt8 :=
  [69, 67, 73, 228, 34, 240, 82, 151, 25, 30, 173, 19, 226, 29, 61, 181, 32, 229, 171, 239, 82, 5, 94, 73, 100,
    184, 47, 178, 19, 245, 147, 161]

def secretTag : List UInt8 :=
  [103, 232, 64, 37, 158, 213, 120, 194, 107, 198, 108, 39, 83, 98, 222, 152, 133, 105, 144, 253, 67, 20, 93, 8,
    24, 217, 173, 98, 35, 127, 246, 162]

def digestTag : List UInt8 :=
  [177, 251, 208, 69, 254, 249, 253, 157, 9, 184, 87, 239, 30, 9, 24, 187, 153, 72, 29, 146, 4, 145, 184, 3, 107,
    87, 205, 66, 202, 212, 10, 215]

def sampleEd25519 : Ed25519 (List UInt8) where
  isPrivateKey secret := secret.length = 32
  publicKey secret := if secret = sampleSecret then samplePublic else 0 :: secret
  sign secret content := if secret = sampleSecret ∧ content = [114] then sampleSignature else content
  verify pub signature content :=
    if signature = (if pub = samplePublic ∧ content = [114] then sampleSignature else content) then .ok ()
    else .error (.other "InvalidSignature" "")

def sampleSha256 (bytes : List UInt8) : List UInt8 :=
  if bytes = sampleSecret then secretDigest
  else if bytes = [114] then contentDigest
  else if bytes.length = 32 then bytes.map (· + 1)
  else List.replicate 32 0

def sampleHmac (key message : List UInt8) : List UInt8 :=
  if key = sampleSecret ∧ message = [114] then secretTag
  else if key = secretDigest ∧ message = [114] then digestTag
  else List.replicate 64 0 ++ key

def sampleLibraries (hasEd25519 : Bool) : Libraries (List UInt8) :=
  .ofBytes sampleSha256 sampleHmac (if hasEd25519 then some sampleEd25519 else none)

theorem sampleLibraries_correct (hasEd25519 : Bool) : (sampleLibraries hasEd25519).Correct where
  decode_encode bytes := b64decode_b64encode bytes
  isPrivateKey ed hed secret hsecret := by
    cases hasEd25519 with
    | false => cases hed
    | true =>
      cases hed
      exact decide_eq_true hsecret
  verify_sign ed hed secret content hsecret := by
    cases hasEd25519 with
    | false => cases hed
    | true =>
      cases hed
      unfold sampleEd25519
      dsimp only
      by_cases hsample : secret = sampleSecret
      · rw [if_pos hsample]
        by_cases hcontent : content = [114]
        · simp [hsample, hcontent]
        · simp [hcontent]
      · have hother : 0 :: secret ≠ samplePublic := by
          intro heq
          have hlength := congrArg List.length heq
          rw [List.length_cons, hsecret] at hlength
          exact absurd hlength (by decide)
        simp [hsample, hother]

theorem length_sampleSha256 (bytes : List UInt8) : (sampleSha256 bytes).length = 32 := by
  unfold sampleSha256
  split
  · rfl
  · split
    · rfl
    · split
      · next h => rw [List.length_map, h]
      · rfl

theorem sampleSha256_ne {secret : List UInt8} (hsecret : secret.length = 32) : sampleSha256 secret ≠ secret := by
  unfold sampleSha256
  split
  · next h =>
    rw [h]
    decide
  · split
    · next h =>
      rw [h] at hsecret
      cases hsecret
    · intro hsame
      cases secret with
      | nil => cases hsecret
      | cons b rest =>
        have hhead : b + 1 = b := (List.cons.inj hsame).1
        exact absurd hhead (by simp)

/-- Off the two sample tags the key can be read back, and those tags are shorter. -/
theorem sampleHmac_key {key key' message : List UInt8} (htag : sampleHmac key message = sampleHmac key' message) :
    key = key' := by
  have hlengths : secretTag.length = 32 ∧ digestTag.length = 32 := by decide
  have hne : secretTag ≠ digestTag := by decide
  have hlong (rest : List UInt8) : 32 < (List.replicate 64 (0 : UInt8) ++ rest).length := by
    rw [List.length_append, List.length_replicate]
    omega
  unfold sampleHmac at htag
  split at htag
  · next h =>
    split at htag
    · next h' => rw [h.1, h'.1]
    · split at htag
      · exact absurd htag hne
      · have htoo := hlong key'
        rw [← htag] at htoo
        omega
  · split at htag
    · next h =>
      split at htag
      · exact absurd htag hne.symm
      · split at htag
        · next h' => rw [h.1, h'.1]
        · have htoo := hlong key'
          rw [← htag] at htoo
          omega
    · split at htag
      · have htoo := hlong key
        rw [htag] at htoo
        omega
      · split at htag
        · have htoo := hlong key
          rw [htag] at htoo
          omega
        · exact List.append_cancel_left htag

theorem sampleLibraries_separates (hasEd25519 : Bool) : (sampleLibraries hasEd25519).Separates where
  length_sha256 := length_sampleSha256
  sha256_ne _ := sampleSha256_ne
  hmac_key _ _ _ _ := sampleHmac_key

def trustsBuilder : SignatureVerifier := { trustedKeys := [("builder-1", b64encode samplePublic)] }

/-- A signature made at the epoch passes a year and a second later, with a new timestamp. -/
theorem redated_signature_passes : ¬ ∀ (lib : Libraries (List UInt8)) (signer : ArtifactSigner (List UInt8))
    (v : SignatureVerifier) (content : List UInt8) (t timestamp : Rat)
    (payloadHash keyId algorithm expectedKeyId : String) (now : Rat), t + v.maxAgeSeconds < now →
      ¬ v.Accepts lib content { signer.sign lib content t with payloadHash, keyId, timestamp, algorithm }
        expectedKeyId now := by
  intro h
  refine h (sampleLibraries true) { keyId := "builder-1", privBytes := sampleSecret, algorithm := "ed25519" }
    trustsBuilder [114] 0 31536001 (hexDigits contentDigest) "builder-1" "ed25519" "" 31536001 ?_ ?_
  · decide +kernel
  · refine SignatureVerifier.accepts_iff.mpr ⟨by decide +kernel, .inl rfl, by decide +kernel, ?_⟩
    refine ⟨b64encode samplePublic, sampleSignature, samplePublic, rfl, b64decode_b64encode sampleSignature,
      b64decode_b64encode samplePublic, ?_⟩
    exact SignatureVerifier.checkSignature_iff.mpr (.inr ⟨rfl, sampleEd25519, rfl, by decide +kernel⟩)

end Occp.Security
