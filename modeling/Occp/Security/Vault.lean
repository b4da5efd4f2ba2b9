import Occp.Lib.Base64
import Occp.Security.Encryption

/-!
# The credential vault (`security/vault.py`)

AES-GCM, HKDF and SHA-256 are parameters. Each encryption is given its random salt and nonce, or what it
raises instead. The times of an entry are left out.
-/

namespace Occp.Security

/-! ## Base64 -/

def b64encode (bytes : List UInt8) : String := String.ofList (Lib.Base64.encode bytes)

/-- `base64.b64decode` of a string. The text of the `binascii.Error` is left out. -/
def b64decode (text : String) : Except PyError (List UInt8) :=
  if text.toList.all (·.toNat < 128) then
    match Lib.Base64.decode text.toList with
    | some bytes => .ok bytes
    | none => .error (.other "binascii.Error" "")
  else .error (.valueError "string argument should contain only ASCII characters")

@[simp] theorem b64decode_b64encode (bytes : List UInt8) : b64decode (b64encode bytes) = .ok bytes := by
  unfold b64decode b64encode
  rw [String.toList_ofList, if_pos, Lib.Base64.decode_encode]
  rw [List.all_eq_true]
  intro c hc
  exact decide_eq_true (Lib.Base64.encode_ascii bytes c hc)

/-! ## Entries -/

inductive SecretStatus where
  | active
  | rotated
  | revoked
  deriving DecidableEq

structure VaultEntry where
  orgId : String
  keyName : String
  encryptedValue : String
  maskedValue : String
  status : SecretStatus := .active
  labels : Dict String := []
  version : Nat := 1
  rotatedFrom : String := ""

structure VaultAuditEvent where
  action : String
  orgId : String
  keyName : String := ""
  detail : Dict Value := []

def maskSecret (value : String) : String :=
  let cs := value.toList
  if cs.length ≤ 10 then "***"
  else String.ofList (cs.take 4) ++ "***" ++ String.ofList (cs.drop (cs.length - 4))

def keyLength : Nat := 32

/-- The bytes of a master key. A passphrase is hashed, and so are bytes of another length. -/
def masterBytes (sha256 : List UInt8 → List UInt8) (masterKey : String) : List UInt8 :=
  let decoded := match b64decode masterKey with
    | .ok bytes => bytes
    | .error _ => sha256 (utf8 masterKey)
  if decoded.length ≠ keyLength then sha256 decoded else decoded

/-! ## The vault -/

/-- `audit` is what the audit callback has been given. -/
structure CredentialVault where
  master : List UInt8
  stored : Dict (Dict VaultEntry) := []
  audit : List VaultAuditEvent := []

namespace CredentialVault

/-- Version 2, unlike that of a token. -/
def v1Prefix : List UInt8 := [2]

variable (c : Primitives) (sha256 : List UInt8 → List UInt8) (v : CredentialVault)

/-- `ephemeral` are the random bytes that stand in for a missing key. -/
def ofMasterKey (masterKey : String) (ephemeral : List UInt8) : CredentialVault :=
  { master := if masterKey = "" then ephemeral else masterBytes sha256 masterKey }

def emitAudit (event : VaultAuditEvent) : CredentialVault := { v with audit := v.audit ++ [event] }

def lookup? (orgId keyName : String) : Option VaultEntry := (v.stored.get? orgId).bind (·.get? keyName)

def putEntry (orgId keyName : String) (entry : VaultEntry) : CredentialVault :=
  { v with stored := v.stored.set orgId (((v.stored.get? orgId).getD []).set keyName entry) }

def getEntry (orgId keyName : String) : Except PyError VaultEntry :=
  match v.stored.get? orgId with
  | none => .error (.other "KeyError" s!"No secrets for org: {orgId}")
  | some orgStore =>
    match orgStore.get? keyName with
    | none => .error (.other "KeyError" s!"Secret not found: {orgId}/{keyName}")
    | some entry => .ok entry

def deriveOrgDek (orgId : String) (salt : List UInt8) : List UInt8 :=
  c.derive salt (utf8 s!"occp-vault-org-dek-v1:{orgId}") v.master

def encrypt (draw : Except PyError Randomness) (orgId plaintext : String) : Except PyError String :=
  match draw with
  | .error e => .error e
  | .ok r =>
    let dek := v.deriveOrgDek c orgId r.salt
    let aad := v1Prefix ++ utf8 orgId
    .ok (b64encode (v1Prefix ++ r.salt ++ r.nonce ++ c.encrypt dek r.nonce (utf8 plaintext) aad))

def decrypt (orgId encryptedB64 : String) : Except PyError String :=
  match b64decode encryptedB64 with
  | .error e => .error e
  | .ok raw =>
    if raw.length < 1 + 16 + nonceLength + 16 then .error (.valueError "Invalid vault envelope: too short")
    else
      let version := raw.headD 0
      if version ≠ 2 then .error (.valueError s!"Unsupported vault envelope version: {version}")
      else
        let salt := (raw.drop 1).take 16
        let nonce := (raw.drop 17).take nonceLength
        let ctAndTag := raw.drop (17 + nonceLength)
        match c.decrypt (v.deriveOrgDek c orgId salt) nonce ctAndTag (v1Prefix ++ utf8 orgId) with
        | none => .error (.other "InvalidTag" "")
        | some bytes =>
          match utf8? bytes with
          | none => .error (.other "UnicodeDecodeError" "'utf-8' codec can't decode the plaintext")
          | some plaintext => .ok plaintext

/-! ### Secrets -/

def store (draw : Except PyError Randomness) (orgId keyName plaintext : String) (labels : Dict String) :
    Except PyError VaultEntry × CredentialVault :=
  if orgId = "" ∨ keyName = "" then (.error (.valueError "org_id and key_name are required"), v)
  else if plaintext = "" then (.error (.valueError "plaintext secret cannot be empty"), v)
  else
    match v.encrypt c draw orgId plaintext with
    | .error e => (.error e, v)
    | .ok encrypted =>
      let masked := maskSecret plaintext
      let entry := { orgId, keyName, encryptedValue := encrypted, maskedValue := masked, labels }
      (.ok entry, (v.putEntry orgId keyName entry).emitAudit
        { action := "store", orgId, keyName, detail := [("masked", .str masked)] })

def retrieve (orgId keyName : String) : Except PyError String × CredentialVault :=
  match v.getEntry orgId keyName with
  | .error e => (.error e, v)
  | .ok entry =>
    if entry.status = .revoked then
      (.error (.valueError s!"Secret {orgId}/{keyName} has been revoked"),
        v.emitAudit { action := "retrieve_denied", orgId, keyName, detail := [("reason", .str "revoked")] })
    else
      match v.decrypt c orgId entry.encryptedValue with
      | .error e => (.error e, v)
      | .ok plaintext => (.ok plaintext, v.emitAudit { action := "retrieve", orgId, keyName })

def rotate (draw : Except PyError Randomness) (orgId keyName newPlaintext : String) :
    Except PyError VaultEntry × CredentialVault :=
  if newPlaintext = "" then (.error (.valueError "New secret value cannot be empty"), v)
  else
    match v.getEntry orgId keyName with
    | .error e => (.error e, v)
    | .ok entry =>
      if entry.status = .revoked then
        (.error (.valueError s!"Cannot rotate revoked secret {orgId}/{keyName}"), v)
      else
        match v.encrypt c draw orgId newPlaintext with
        | .error e => (.error e, v)
        | .ok newEncrypted =>
          let newMasked := maskSecret newPlaintext
          let entry := { entry with
            rotatedFrom := entry.encryptedValue
            encryptedValue := newEncrypted
            maskedValue := newMasked
            version := entry.version + 1
            status := .active }
          (.ok entry, (v.putEntry orgId keyName entry).emitAudit
            { action := "rotate", orgId, keyName
              detail := [("new_version", .int entry.version), ("masked", .str newMasked)] })

def revoke (orgId keyName : String) : Except PyError VaultEntry × CredentialVault :=
  match v.getEntry orgId keyName with
  | .error e => (.error e, v)
  | .ok entry =>
    let entry := { entry with status := .revoked, encryptedValue := "", rotatedFrom := "" }
    (.ok entry, (v.putEntry orgId keyName entry).emitAudit { action := "revoke", orgId, keyName })

/-! ### Master keys -/

/-- The loop of `rotate_org_key`. Only the encryption uses the new master key, but an encryption that raises
leaves it behind. -/
def reEncrypt (draw : String → Except PyError Randomness) (orgId newMasterKey : String) :
    List String → (reEncrypted : Nat) → CredentialVault → Except PyError Nat × CredentialVault
  | [], reEncrypted, v => (.ok reEncrypted, v)
  | keyName :: rest, reEncrypted, v =>
    match v.lookup? orgId keyName with
    | none => reEncrypt draw orgId newMasterKey rest reEncrypted v
    | some entry =>
      if entry.status = .revoked then reEncrypt draw orgId newMasterKey rest reEncrypted v
      else
        match v.decrypt c orgId entry.encryptedValue with
        | .error e => (.error e, v)
        | .ok plaintext =>
          let swapped := { v with master := masterBytes sha256 newMasterKey }
          match swapped.encrypt c (draw keyName) orgId plaintext with
          | .error e => (.error e, swapped)
          | .ok encrypted =>
            reEncrypt draw orgId newMasterKey rest (reEncrypted + 1)
              { swapped.putEntry orgId keyName { entry with encryptedValue := encrypted } with master := v.master }

def rotateOrgKey (draw : String → Except PyError Randomness) (orgId newMasterKey : String) :
    Except PyError Nat × CredentialVault :=
  match v.stored.get? orgId with
  | none | some [] => (.ok 0, v)
  | some orgStore =>
    match reEncrypt c sha256 draw orgId newMasterKey orgStore.keys 0 v with
    | (.error e, v) => (.error e, v)
    | (.ok reEncrypted, v) =>
      (.ok reEncrypted, v.emitAudit { action := "rotate_org_key", orgId, detail := [("re_encrypted", .int reEncrypted)] })

end CredentialVault

end Occp.Security
