import Mathlib.Logic.Function.Basic
import Occp.Lib.Runs
import Occp.Security.Vault

/-!
# The vault as a map

What the vault is for: each organisation has secrets by name. A rotation of the master key encrypts
the secrets of one organisation under a key that the vault does not keep.
-/

namespace Occp.Security

open Lib (run Admitted)

/-- The secret of an organisation by its name. One that is stored again is no longer revoked. -/
abbrev Secrets := String × String → Option String

inductive VaultEvent where
  | store (random : Randomness) (orgId keyName plaintext : String) (labels : Dict String)
  | retrieve (orgId keyName : String)
  | rotate (random : Randomness) (orgId keyName newPlaintext : String)
  | revoke (orgId keyName : String)
  | rotateOrgKey (random : String → Randomness) (orgId newMasterKey : String)

def Secrets.step (m : Secrets) : VaultEvent → Secrets
  | .store _ orgId keyName plaintext _ =>
    if orgId = "" ∨ keyName = "" ∨ plaintext = "" then m else Function.update m (orgId, keyName) (some plaintext)
  | .rotate _ orgId keyName newPlaintext =>
    if newPlaintext = "" ∨ m (orgId, keyName) = none then m
    else Function.update m (orgId, keyName) (some newPlaintext)
  | .revoke orgId keyName => Function.update m (orgId, keyName) none
  | .retrieve .. | .rotateOrgKey .. => m

namespace CredentialVault

variable (c : Primitives) (sha256 : List UInt8 → List UInt8)

def step (v : CredentialVault) : VaultEvent → CredentialVault
  | .store random orgId keyName plaintext labels => (v.store c (.ok random) orgId keyName plaintext labels).2
  | .retrieve orgId keyName => (v.retrieve c orgId keyName).2
  | .rotate random orgId keyName newPlaintext => (v.rotate c (.ok random) orgId keyName newPlaintext).2
  | .revoke orgId keyName => (v.revoke orgId keyName).2
  | .rotateOrgKey random orgId newMasterKey => (v.rotateOrgKey c sha256 (fun k => .ok (random k)) orgId newMasterKey).2

/-- The names of an organisation's secrets, also of revoked ones. -/
def names (v : CredentialVault) (orgId : String) : List String := ((v.stored.get? orgId).getD []).keys

/-- A rotation of the master key is to the key that the vault has, or of an organisation without secrets. -/
def KeepsKey (v : CredentialVault) : VaultEvent → Prop
  | .rotateOrgKey _ orgId newMasterKey =>
    masterBytes sha256 newMasterKey = v.master ∨
      ∀ keyName ∈ v.names orgId, (v.lookup? orgId keyName).all (·.status = .revoked) = true
  | _ => True

instance (v : CredentialVault) (e : VaultEvent) : Decidable (v.KeepsKey sha256 e) := by
  cases e <;> unfold KeepsKey <;> infer_instance

variable {c sha256} {v : CredentialVault} {m : Secrets}

/-! ## Reading an entry -/

theorem decrypt_encrypt (hc : c.Correct) (r : Randomness) (orgId plaintext : String) {encrypted : String}
    (h : v.encrypt c (.ok r) orgId plaintext = .ok encrypted) : v.decrypt c orgId encrypted = .ok plaintext := by
  obtain ⟨salt, nonce, hsalt, hnonce⟩ := r
  cases h
  unfold decrypt
  rw [b64decode_b64encode]
  dsimp only
  have hone : v1Prefix.length = 1 := rfl
  have hlength := hc.length_encrypt (v.deriveOrgDek c orgId salt) nonce (utf8 plaintext) (v1Prefix ++ utf8 orgId)
  obtain ⟨hs, hn, ht⟩ := envelope_parts
    (c.encrypt (v.deriveOrgDek c orgId salt) nonce (utf8 plaintext) (v1Prefix ++ utf8 orgId)) hone hsalt hnonce
  have hlong : ¬ (v1Prefix ++ salt ++ nonce ++
      c.encrypt (v.deriveOrgDek c orgId salt) nonce (utf8 plaintext) (v1Prefix ++ utf8 orgId)).length <
        1 + 16 + nonceLength + 16 := by
    rw [List.length_append, List.length_append, List.length_append, hsalt, hnonce, hlength]
    unfold tagLength
    omega
  have hversion : (v1Prefix ++ salt ++ nonce ++
      c.encrypt (v.deriveOrgDek c orgId salt) nonce (utf8 plaintext) (v1Prefix ++ utf8 orgId)).headD 0 = 2 := rfl
  rw [if_neg hlong, if_neg (not_not.mpr hversion), hs, hn, ht, hc.decrypt_encrypt]
  dsimp only
  rw [utf8?_utf8]

variable (c v) in
/-- What the vault makes of a secret that it has and that is not revoked. -/
def content (orgId keyName : String) : Option (Except PyError String) :=
  ((v.lookup? orgId keyName).filter (·.status ≠ .revoked)).map fun e => v.decrypt c orgId e.encryptedValue

theorem lookup?_putEntry (orgId keyName : String) (entry : VaultEntry) (orgId' keyName' : String) :
    (v.putEntry orgId keyName entry).lookup? orgId' keyName' =
      if orgId' = orgId ∧ keyName' = keyName then some entry else v.lookup? orgId' keyName' := by
  unfold lookup? putEntry
  dsimp only
  rw [Dict.get?_set]
  by_cases horg : orgId' = orgId
  · rw [if_pos horg, Option.bind_some, Dict.get?_set, horg]
    by_cases hkey : keyName' = keyName
    · rw [if_pos hkey, if_pos ⟨rfl, hkey⟩]
    · rw [if_neg hkey, if_neg fun h => hkey h.2]
      cases v.stored.get? orgId <;> rfl
  · rw [if_neg horg, if_neg fun h => horg h.1]

theorem getEntry_cases (v : CredentialVault) (orgId keyName : String) :
    (v.lookup? orgId keyName = none ∧ ∃ e, v.getEntry orgId keyName = .error e) ∨
      ∃ entry, v.lookup? orgId keyName = some entry ∧ v.getEntry orgId keyName = .ok entry := by
  unfold getEntry lookup?
  cases v.stored.get? orgId with
  | none => exact .inl ⟨rfl, _, rfl⟩
  | some orgStore =>
    rw [Option.bind_some]
    dsimp only
    cases orgStore.get? keyName with
    | none => exact .inl ⟨rfl, _, rfl⟩
    | some entry => exact .inr ⟨entry, rfl, rfl⟩

theorem mem_names {orgId keyName : String} {entry : VaultEntry}
    (h : v.lookup? orgId keyName = some entry) : keyName ∈ v.names orgId := by
  unfold lookup? at h
  unfold names
  obtain ⟨orgStore, hstore, hget⟩ := Option.bind_eq_some_iff.mp h
  rw [hstore, Option.getD_some]
  by_contra hnot
  rw [(Dict.get?_eq_none_iff orgStore keyName).mpr hnot] at hget
  cases hget

variable (c v m) in
/-- The vault has just the secrets of the map, and reads them. -/
def Refines : Prop := ∀ orgId keyName, v.content c orgId keyName = (m (orgId, keyName)).map .ok

theorem Refines.eq_none (h : Refines c v m) {orgId keyName : String}
    (hnone : ∀ entry, v.lookup? orgId keyName = some entry → entry.status = .revoked) : m (orgId, keyName) = none := by
  have hcontent := h orgId keyName
  unfold content at hcontent
  cases hentry : v.lookup? orgId keyName with
  | none =>
    rw [hentry] at hcontent
    exact Option.map_eq_none_iff.mp hcontent.symm
  | some entry =>
    rw [hentry, Option.filter_some, if_neg (by simp [hnone entry hentry])] at hcontent
    exact Option.map_eq_none_iff.mp hcontent.symm

theorem Refines.eq_some (h : Refines c v m) {orgId keyName : String} {entry : VaultEntry}
    (hentry : v.lookup? orgId keyName = some entry) (hstatus : entry.status ≠ .revoked) :
    ∃ p, m (orgId, keyName) = some p ∧ v.decrypt c orgId entry.encryptedValue = .ok p := by
  have hcontent := h orgId keyName
  unfold content at hcontent
  rw [hentry, Option.filter_some, if_pos (decide_eq_true hstatus), Option.map_some] at hcontent
  obtain ⟨p, hp, hread⟩ := Option.map_eq_some_iff.mp hcontent.symm
  exact ⟨p, hp, hread.symm⟩

/-! ## One call -/

/-- An answer of the vault is the secret of the map. -/
theorem Refines.retrieve (h : Refines c v m) (orgId keyName : String) :
    (v.retrieve c orgId keyName).1.toOption = m (orgId, keyName) := by
  unfold CredentialVault.retrieve
  rcases getEntry_cases v orgId keyName with ⟨hnone, e, hget⟩ | ⟨entry, hentry, hget⟩
  · rw [hget, h.eq_none (by simp [hnone])]
    rfl
  · rw [hget]
    dsimp only
    split
    · next hrevoked =>
      rw [h.eq_none fun entry' h' => by cases hentry.symm.trans h'; exact hrevoked]
      rfl
    · next hactive =>
      obtain ⟨p, hp, hread⟩ := h.eq_some hentry hactive
      rw [hp, hread]
      rfl

theorem Refines.afterRetrieve (h : Refines c v m) (orgId keyName : String) :
    Refines c (v.retrieve c orgId keyName).2 m := by
  unfold CredentialVault.retrieve
  split
  · exact h
  · split
    · exact h
    · split
      · exact h
      · exact h

/-- A new entry is the secret that it decrypts to. -/
theorem Refines.putEntry (h : Refines c v m) (keyName : String) {orgId plaintext : String} {entry : VaultEntry}
    (hstatus : entry.status ≠ .revoked) (hread : v.decrypt c orgId entry.encryptedValue = .ok plaintext) :
    Refines c (v.putEntry orgId keyName entry) (Function.update m (orgId, keyName) (some plaintext)) := by
  intro orgId' keyName'
  unfold content
  rw [lookup?_putEntry]
  by_cases hsame : orgId' = orgId ∧ keyName' = keyName
  · obtain ⟨rfl, rfl⟩ := hsame
    rw [if_pos ⟨rfl, rfl⟩, Option.filter_some, if_pos (decide_eq_true hstatus), Function.update_self]
    exact congrArg some hread
  · rw [if_neg hsame, Function.update_of_ne fun heq => hsame (Prod.mk.inj heq)]
    exact h orgId' keyName'

theorem Refines.revokeEntry (h : Refines c v m) (orgId keyName : String) {entry : VaultEntry}
    (hstatus : entry.status = .revoked) :
    Refines c (v.putEntry orgId keyName entry) (Function.update m (orgId, keyName) none) := by
  intro orgId' keyName'
  unfold content
  rw [lookup?_putEntry]
  by_cases hsame : orgId' = orgId ∧ keyName' = keyName
  · obtain ⟨rfl, rfl⟩ := hsame
    rw [if_pos ⟨rfl, rfl⟩, Option.filter_some, if_neg (by simp [hstatus]), Function.update_self]
    rfl
  · rw [if_neg hsame, Function.update_of_ne fun heq => hsame (Prod.mk.inj heq)]
    exact h orgId' keyName'

theorem encrypt_ok (v : CredentialVault) (r : Randomness) (orgId plaintext : String) :
    ∃ encrypted, v.encrypt c (.ok r) orgId plaintext = .ok encrypted := ⟨_, rfl⟩

theorem Refines.store (h : Refines c v m) (hc : c.Correct) (random : Randomness) (orgId keyName plaintext : String)
    (labels : Dict String) : Refines c (v.store c (.ok random) orgId keyName plaintext labels).2
      (m.step (.store random orgId keyName plaintext labels)) := by
  unfold CredentialVault.store Secrets.step
  dsimp only
  by_cases hids : orgId = "" ∨ keyName = ""
  · rw [if_pos hids, if_pos (hids.imp_right .inl)]
    exact h
  · rw [if_neg hids]
    by_cases hplain : plaintext = ""
    · rw [if_pos hplain, if_pos (.inr (.inr hplain))]
      exact h
    · rw [if_neg hplain, if_neg (by tauto)]
      obtain ⟨encrypted, hencrypt⟩ := encrypt_ok (c := c) v random orgId plaintext
      rw [hencrypt]
      exact h.putEntry keyName (nofun) (decrypt_encrypt hc random orgId plaintext hencrypt)

theorem Refines.rotate (h : Refines c v m) (hc : c.Correct) (random : Randomness)
    (orgId keyName newPlaintext : String) : Refines c (v.rotate c (.ok random) orgId keyName newPlaintext).2
      (m.step (.rotate random orgId keyName newPlaintext)) := by
  unfold CredentialVault.rotate Secrets.step
  dsimp only
  by_cases hplain : newPlaintext = ""
  · rw [if_pos hplain, if_pos (.inl hplain)]
    exact h
  · rw [if_neg hplain]
    rcases getEntry_cases v orgId keyName with ⟨hnone, e, hget⟩ | ⟨entry, hentry, hget⟩
    · rw [hget, if_pos (.inr (h.eq_none (by simp [hnone])))]
      exact h
    · rw [hget]
      dsimp only
      by_cases hrevoked : entry.status = .revoked
      · have hgone := h.eq_none fun entry' h' => by cases hentry.symm.trans h'; exact hrevoked
        rw [if_pos hrevoked, if_pos (.inr hgone)]
        exact h
      · obtain ⟨p, hp, -⟩ := h.eq_some hentry hrevoked
        obtain ⟨encrypted, hencrypt⟩ := encrypt_ok (c := c) v random orgId newPlaintext
        rw [if_neg hrevoked, hencrypt, if_neg (by simp [hplain, hp])]
        exact h.putEntry keyName (nofun) (decrypt_encrypt hc random orgId newPlaintext hencrypt)

theorem Refines.revoke (h : Refines c v m) (orgId keyName : String) :
    Refines c (v.revoke orgId keyName).2 (m.step (.revoke orgId keyName)) := by
  change Refines c (v.revoke orgId keyName).2 (Function.update m (orgId, keyName) none)
  unfold CredentialVault.revoke
  rcases getEntry_cases v orgId keyName with ⟨hnone, e, hget⟩ | ⟨entry, hentry, hget⟩
  · have hgone : m (orgId, keyName) = none := h.eq_none (by simp [hnone])
    rw [hget, ← hgone, Function.update_eq_self]
    exact h
  · rw [hget]
    exact h.revokeEntry orgId keyName rfl

theorem Refines.reEncrypt (hc : c.Correct) {random : String → Randomness} {orgId newMasterKey : String}
    (names : List String) {n : Nat} {v : CredentialVault} (h : Refines c v m)
    (hkey : masterBytes sha256 newMasterKey = v.master) :
    Refines c (CredentialVault.reEncrypt c sha256 (fun k => .ok (random k)) orgId newMasterKey names n v).2 m := by
  induction names generalizing n v with
  | nil => exact h
  | cons keyName rest ih =>
    unfold CredentialVault.reEncrypt
    split
    · exact ih h hkey
    · next entry hentry =>
      split
      · exact ih h hkey
      · next hactive =>
        obtain ⟨p, hp, hread⟩ := h.eq_some hentry hactive
        obtain ⟨encrypted, hencrypt⟩ := encrypt_ok (c := c) v (random keyName) orgId p
        have hswapped : { v with master := masterBytes sha256 newMasterKey } = v := by rw [hkey]
        rw [hread]
        dsimp only
        rw [hswapped, hencrypt]
        refine ih ?_ hkey
        have hput : Refines c (v.putEntry orgId keyName { entry with encryptedValue := encrypted })
            (Function.update m (orgId, keyName) (some p)) :=
          h.putEntry keyName hactive (decrypt_encrypt hc (random keyName) orgId p hencrypt)
        rwa [← hp, Function.update_eq_self] at hput

theorem reEncrypt_revoked {draw : String → Except PyError Randomness} {orgId newMasterKey : String}
    (hrevoked : ∀ keyName entry, v.lookup? orgId keyName = some entry → entry.status = .revoked) (names : List String)
    (n : Nat) : reEncrypt c sha256 draw orgId newMasterKey names n v = (.ok n, v) := by
  induction names with
  | nil => rfl
  | cons keyName rest ih =>
    unfold reEncrypt
    split
    · exact ih
    · next entry hentry =>
      rw [if_pos (hrevoked keyName entry hentry)]
      exact ih

theorem Refines.rotateOrgKey (h : Refines c v m) (hc : c.Correct) (random : String → Randomness)
    (orgId newMasterKey : String) (hkeeps : v.KeepsKey sha256 (.rotateOrgKey random orgId newMasterKey)) :
    Refines c (v.rotateOrgKey c sha256 (fun k => .ok (random k)) orgId newMasterKey).2 m := by
  unfold CredentialVault.rotateOrgKey
  split
  · exact h
  · exact h
  · next orgStore _ hsome =>
    have hloop : Refines c
        (CredentialVault.reEncrypt c sha256 (fun k => .ok (random k)) orgId newMasterKey orgStore.keys 0 v).2 m := by
      rcases hkeeps with hkey | hrevoked
      · exact h.reEncrypt hc _ hkey
      · rw [reEncrypt_revoked]
        · exact h
        · intro keyName entry hentry
          have hname := hrevoked keyName (mem_names hentry)
          rw [hentry] at hname
          exact of_decide_eq_true hname
    split
    · next heq =>
      rw [heq] at hloop
      exact hloop
    · next heq =>
      rw [heq] at hloop
      exact hloop

/-! ## Every run -/

theorem refines_step (h : Refines c v m) (hc : c.Correct) {e : VaultEvent} (hkeeps : v.KeepsKey sha256 e) :
    Refines c (v.step c sha256 e) (m.step e) := by
  cases e with
  | store random orgId keyName plaintext labels => exact h.store hc random orgId keyName plaintext labels
  | retrieve orgId keyName => exact h.afterRetrieve orgId keyName
  | rotate random orgId keyName newPlaintext => exact h.rotate hc random orgId keyName newPlaintext
  | revoke orgId keyName => exact h.revoke orgId keyName
  | rotateOrgKey random orgId newMasterKey => exact h.rotateOrgKey hc random orgId newMasterKey hkeeps

theorem refines_run (hc : c.Correct) {events : List VaultEvent} (h : Refines c v m)
    (hkeeps : Admitted (step c sha256) (KeepsKey sha256) v events) :
    Refines c (run (step c sha256) v events) (run Secrets.step m events) := by
  induction events generalizing v m with
  | nil => exact h
  | cons e events ih => exact ih (refines_step h hc hkeeps.1) hkeeps.2

/-- **The vault answers as the map does**, where the master key is only rotated to the one that the vault has, or for
an organisation all of whose secrets have been revoked. -/
theorem retrieve_run (hc : c.Correct) (masterKey : String) (ephemeral : List UInt8) (events : List VaultEvent)
    (hkeeps : Admitted (step c sha256) (KeepsKey sha256) (ofMasterKey sha256 masterKey ephemeral) events)
    (orgId keyName : String) :
    ((run (step c sha256) (ofMasterKey sha256 masterKey ephemeral) events).retrieve c orgId keyName).1.toOption =
      run Secrets.step (fun _ => none) events (orgId, keyName) := by
  refine Refines.retrieve (refines_run hc ?_ hkeeps) orgId keyName
  intro orgId' keyName'
  rfl

/-! ## Two master keys -/

def firstKey : String := "AAAAAAAAAAAAAAAAAAAAAAAAAAAAAAAAAAAAAAAAAAA="

def secondKey : String := "AQEBAQEBAQEBAQEBAQEBAQEBAQEBAQEBAQEBAQEBAQE="

def sampleRandom : Randomness where
  salt := List.replicate 16 2
  nonce := List.replicate 12 3
  salt_length := rfl
  nonce_length := rfl

def acmeDek (master : List UInt8) : List UInt8 :=
  if master = List.replicate 32 0 then [153, 254, 106, 91, 211, 184, 136, 133, 225, 117, 224, 101, 247, 13, 208, 143, 168,
    206, 65, 21, 108, 184, 124, 66, 88, 176, 169, 149, 220, 126, 82, 205]
  else [177, 215, 249, 239, 28, 113, 127, 159, 100, 194, 105, 218, 8, 135, 211, 229, 54, 78, 77, 47, 118, 194, 3, 127, 41,
    187, 143, 252, 212, 143, 237, 170]

def sealed (key : List UInt8) : List UInt8 :=
  if key = acmeDek (List.replicate 32 0) then
    [42, 96, 151, 141, 218, 115, 22, 245, 62, 23, 108, 27, 117, 199, 121, 27, 197, 119]
  else [96, 151, 230, 169, 102, 142, 208, 233, 27, 200, 254, 191, 93, 209, 20, 85, 147, 145]

/-- AES-GCM and HKDF on these keys. -/
def samplePrimitives : Primitives :=
  Primitives.ofSample (fun _ nonce aad => nonce = sampleRandom.nonce ∧ aad = v1Prefix ++ utf8 "acme") (utf8 "sk") sealed
    fun _ _ master => acmeDek master

theorem samplePrimitives_correct : samplePrimitives.Correct := by
  refine Primitives.ofSample_correct (fun key => ?_) (fun key => ?_)
  · unfold sealed
    split
    · rfl
    · rfl
  · unfold sealed
    split
    · decide
    · decide

theorem rotated_key_loses_secret : ¬ ∀ (c : Primitives) (sha256 : List UInt8 → List UInt8) (masterKey : String)
    (ephemeral : List UInt8) (events : List VaultEvent), c.Correct → ∀ orgId keyName,
      ((run (step c sha256) (ofMasterKey sha256 masterKey ephemeral) events).retrieve c orgId keyName).1.toOption =
        run Secrets.step (fun _ => none) events (orgId, keyName) := by
  intro h
  have hread := h samplePrimitives id firstKey [] [.store sampleRandom "acme" "openai-key" "sk" [],
    .rotateOrgKey (fun _ => sampleRandom) "acme" secondKey] samplePrimitives_correct "acme" "openai-key"
  revert hread
  decide +kernel

theorem stored_secret_is_read :
    ((run (step samplePrimitives id) (ofMasterKey id firstKey []) [.store sampleRandom "acme" "openai-key" "sk" [],
      .rotateOrgKey (fun _ => sampleRandom) "acme" firstKey, .revoke "acme" "other"]).retrieve samplePrimitives
        "acme" "openai-key").1.toOption = some "sk" :=
  (retrieve_run samplePrimitives_correct firstKey [] _ (by decide +kernel) "acme" "openai-key").trans (by decide)

end CredentialVault

end Occp.Security
