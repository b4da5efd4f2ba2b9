import Occp.Errors

/-!
# Token encryption (`security/encryption.py`)

An envelope is kept as its bytes, without the base64 around them. AES-GCM and HKDF are
parameters, and so are the random salt and nonce of each encryption.
-/

namespace Occp.Security

def utf8 (s : String) : List UInt8 := s.toByteArray.data.toList

def utf8? (bytes : List UInt8) : Option String := String.fromUTF8? ⟨bytes.toArray⟩

theorem utf8?_utf8 (s : String) : utf8? (utf8 s) = some s := by
  unfold utf8? utf8 String.fromUTF8?
  rw [Array.toArray_toList]
  rw [dif_pos s.isValidUTF8]
  rfl

/-- `AESGCM` and `HKDF`. A decryption whose tag does not fit raises. -/
structure Primitives where
  encrypt : (key nonce data aad : List UInt8) → List UInt8
  decrypt : (key nonce data aad : List UInt8) → Option (List UInt8)
  derive : (salt info master : List UInt8) → List UInt8

def tagLength : Nat := 16

def nonceLength : Nat := 12

/-- What is encrypted is decrypted again, and the tag makes it longer. -/
structure Primitives.Correct (c : Primitives) : Prop where
  decrypt_encrypt : ∀ key nonce data aad, c.decrypt key nonce (c.encrypt key nonce data aad) aad = some data
  length_encrypt : ∀ key nonce data aad, (c.encrypt key nonce data aad).length = data.length + tagLength

/-- What is known of the primitives on one plaintext. Other plaintexts get a tag of zeros. -/
def Primitives.ofSample (isSample : (key nonce aad : List UInt8) → Bool) (plaintext : List UInt8)
    (sealed : List UInt8 → List UInt8) (derive : (salt info master : List UInt8) → List UInt8) : Primitives where
  encrypt key nonce data aad :=
    if isSample key nonce aad ∧ data = plaintext then sealed key else data ++ List.replicate 16 0
  decrypt key nonce data aad :=
    if isSample key nonce aad ∧ data = sealed key then some plaintext
    else if data.drop (data.length - 16) = List.replicate 16 0 then some (data.take (data.length - 16))
    else none
  derive := derive

theorem Primitives.ofSample_correct {isSample : (key nonce aad : List UInt8) → Bool} {plaintext : List UInt8}
    {sealed : List UInt8 → List UInt8} {derive : (salt info master : List UInt8) → List UInt8}
    (hlength : ∀ key, (sealed key).length = plaintext.length + 16)
    (htag : ∀ key, (sealed key).drop ((sealed key).length - 16) ≠ List.replicate 16 0) :
    (ofSample isSample plaintext sealed derive).Correct where
  decrypt_encrypt key nonce data aad := by
    unfold ofSample
    dsimp only
    by_cases hsample : isSample key nonce aad = true ∧ data = plaintext
    · rw [if_pos hsample, if_pos ⟨hsample.1, rfl⟩, hsample.2]
    · have hlength : (data ++ List.replicate 16 (0 : UInt8)).length - 16 = data.length := by simp
      have hdrop : (data ++ List.replicate 16 (0 : UInt8)).drop data.length = List.replicate 16 0 := List.drop_left' rfl
      have hnot : ¬ (isSample key nonce aad = true ∧ data ++ List.replicate 16 0 = sealed key) := by
        rintro ⟨-, hsealed⟩
        refine htag key ?_
        rw [← hsealed, hlength, hdrop]
      rw [if_neg hsample, if_neg hnot, hlength, if_pos hdrop, List.take_left' rfl]
  length_encrypt key nonce data aad := by
    unfold ofSample
    dsimp only
    split
    · next hsample => rw [hsample.2, hlength]; rfl
    · rw [List.length_append, List.length_replicate]
      rfl

structure Randomness where
  salt : List UInt8
  nonce : List UInt8
  salt_length : salt.length = 16
  nonce_length : nonce.length = nonceLength

/-- The parts of an envelope lie where they are looked for. -/
theorem envelope_parts {version salt nonce : List UInt8} (ct : List UInt8) (hversion : version.length = 1)
    (hsalt : salt.length = 16) (hnonce : nonce.length = nonceLength) :
    let raw := version ++ salt ++ nonce ++ ct
    (raw.drop 1).take 16 = salt ∧ (raw.drop 17).take nonceLength = nonce ∧ raw.drop (17 + nonceLength) = ct := by
  have hhead : (version ++ salt).length = 17 := by rw [List.length_append, hversion, hsalt]
  have hbody : (version ++ salt ++ nonce).length = 17 + nonceLength := by rw [List.length_append, hhead, hnonce]
  have hrest : (version ++ salt ++ nonce ++ ct).drop 17 = nonce ++ ct := by
    rw [List.append_assoc (version ++ salt), List.drop_left' hhead]
  refine ⟨?_, ?_, List.drop_left' hbody⟩
  · have hone : (version ++ salt ++ nonce ++ ct).drop 1 = salt ++ (nonce ++ ct) := by
      rw [List.append_assoc, List.append_assoc, List.drop_left' hversion]
    rw [hone, List.take_left' hsalt]
  · rw [hrest, List.take_left' hnonce]

structure TokenEncryptor where
  master : List UInt8

def v1Prefix : List UInt8 := [1]

namespace TokenEncryptor

variable (c : Primitives)

def deriveDek (e : TokenEncryptor) (salt : List UInt8) : List UInt8 := c.derive salt (utf8 "occp-token-dek-v1") e.master

def encrypt (e : TokenEncryptor) (r : Randomness) (plaintext : String) : List UInt8 :=
  let dek := e.deriveDek c r.salt
  let aad := v1Prefix ++ r.salt
  v1Prefix ++ r.salt ++ r.nonce ++ c.encrypt dek r.nonce (utf8 plaintext) aad

def decrypt (e : TokenEncryptor) (raw : List UInt8) : Except PyError String :=
  if raw.length < 1 + 16 + nonceLength + tagLength then .error (.valueError "Invalid encrypted blob: too short")
  else
    let version := raw.headD 0
    if version ≠ 1 then .error (.valueError s!"Unsupported encryption version: {version}")
    else
      let salt := (raw.drop 1).take 16
      let nonce := (raw.drop 17).take nonceLength
      let ctAndTag := raw.drop (17 + nonceLength)
      match c.decrypt (e.deriveDek c salt) nonce ctAndTag (v1Prefix ++ salt) with
      | none => .error (.other "InvalidTag" "")
      | some bytes =>
        match utf8? bytes with
        | none => .error (.other "UnicodeDecodeError" "'utf-8' codec can't decode the plaintext")
        | some plaintext => .ok plaintext

variable {c}

/-- An encryptor reads its own envelopes. -/
theorem decrypt_encrypt (hc : c.Correct) (e : TokenEncryptor) (r : Randomness) (plaintext : String) :
    e.decrypt c (e.encrypt c r plaintext) = .ok plaintext := by
  obtain ⟨salt, nonce, hsalt, hnonce⟩ := r
  unfold decrypt encrypt
  dsimp only
  have hone : v1Prefix.length = 1 := rfl
  have hlength := hc.length_encrypt (e.deriveDek c salt) nonce (utf8 plaintext) (v1Prefix ++ salt)
  obtain ⟨hs, hn, ht⟩ :=
    envelope_parts (c.encrypt (e.deriveDek c salt) nonce (utf8 plaintext) (v1Prefix ++ salt)) hone hsalt hnonce
  have hlong : ¬ (v1Prefix ++ salt ++ nonce ++
      c.encrypt (e.deriveDek c salt) nonce (utf8 plaintext) (v1Prefix ++ salt)).length < 1 + 16 + nonceLength + tagLength := by
    rw [List.length_append, List.length_append, List.length_append, hsalt, hnonce, hlength]
    omega
  have hversion : (v1Prefix ++ salt ++ nonce ++
      c.encrypt (e.deriveDek c salt) nonce (utf8 plaintext) (v1Prefix ++ salt)).headD 0 = 1 := rfl
  rw [if_neg hlong, if_neg (not_not.mpr hversion), hs, hn, ht, hc.decrypt_encrypt]
  dsimp only
  rw [utf8?_utf8]

end TokenEncryptor

end Occp.Security
