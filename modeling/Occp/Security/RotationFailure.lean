import Occp.Lib.Except
import Occp.Security.VaultMap

/-!
# A rotation that raises (`CredentialVault.rotate_org_key`)

The secrets are re-encrypted in place, one after another, and an encryption that raises leaves the
new master key behind.
-/

namespace Occp.Security.CredentialVault

variable (c : Primitives) (sha256 : List UInt8 → List UInt8) (draw : String → Except PyError Randomness)
  (orgId newMasterKey : String)

def orgStore (v : CredentialVault) : Dict VaultEntry := (v.stored.get? orgId).getD []

def swapped (v : CredentialVault) : CredentialVault := { v with master := masterBytes sha256 newMasterKey }

/-- The new text of a secret, or what its re-encryption raises. -/
def newText (v : CredentialVault) (b : String × VaultEntry) : Except PyError String :=
  v.decrypt c orgId b.2.encryptedValue >>= (v.swapped sha256 newMasterKey).encrypt c (draw b.1) orgId

/-- The secret is skipped, or re-encrypted. -/
def Passes (v : CredentialVault) (b : String × VaultEntry) : Prop :=
  b.2.status = .revoked ∨ ∃ text, v.newText c sha256 draw orgId newMasterKey b = .ok text

/-- Of these secrets, the rotation comes to this one and raises there. -/
structure FailsAt (v : CredentialVault) (entries before : List (String × VaultEntry)) (b : String × VaultEntry) :
    Prop where
  position : ∃ rest, entries = before ++ b :: rest
  passes : ∀ a ∈ before, v.Passes c sha256 draw orgId newMasterKey a
  active : b.2.status ≠ .revoked
  raises : ∃ err, v.newText c sha256 draw orgId newMasterKey b = .error err

/-- If the rotation raises, then nothing has changed, and no later answer. -/
def AllOrNothing (v : CredentialVault) : Prop :=
  (∃ err, (v.rotateOrgKey c sha256 draw orgId newMasterKey).1 = .error err) →
    let after := (v.rotateOrgKey c sha256 draw orgId newMasterKey).2
    after.master = v.master ∧ after.stored = v.stored ∧
      ∀ org keyName, (after.retrieve c org keyName).1 = (v.retrieve c org keyName).1

/-- The vault with the new texts of these secrets. -/
def rewrite (v : CredentialVault) : List (String × VaultEntry) → CredentialVault → CredentialVault
  | [], w => w
  | b :: rest, w =>
    match v.newText c sha256 draw orgId newMasterKey b with
    | .ok text =>
      if b.2.status = .revoked then v.rewrite rest w
      else v.rewrite rest (w.putEntry orgId b.1 { b.2 with encryptedValue := text })
    | .error _ => v.rewrite rest w

variable {c sha256 draw orgId newMasterKey} {v w : CredentialVault}

/-! ## One secret -/

theorem decrypt_congr (h : w.master = v.master) (text : String) : w.decrypt c orgId text = v.decrypt c orgId text := by
  unfold decrypt deriveOrgDek
  rw [h]

theorem encrypt_congr (h : w.master = v.master) (r : Except PyError Randomness) (text : String) :
    w.encrypt c r orgId text = v.encrypt c r orgId text := by
  unfold encrypt deriveOrgDek
  rw [h]

theorem retrieve_congr (hmaster : w.master = v.master) (hstored : w.stored = v.stored) (keyName : String) :
    (w.retrieve c orgId keyName).1 = (v.retrieve c orgId keyName).1 := by
  unfold retrieve getEntry
  simp only [hstored, decrypt_congr hmaster]
  split
  · rfl
  · split
    · rfl
    · split <;> rfl

theorem putEntry_self {keyName : String} {entry : VaultEntry} (h : w.lookup? orgId keyName = some entry) :
    w.putEntry orgId keyName entry = w := by
  obtain ⟨store, hstore, hentry⟩ := Option.bind_eq_some_iff.mp h
  unfold putEntry
  rw [hstore, Option.getD_some, Dict.set_of_get? hentry, Dict.set_of_get? hstore]

variable {b : String × VaultEntry}

theorem reEncrypt_revoked_cons (hentry : w.lookup? orgId b.1 = some b.2) (hrevoked : b.2.status = .revoked)
    (names : List String) (n : Nat) :
    reEncrypt c sha256 draw orgId newMasterKey (b.1 :: names) n w =
      reEncrypt c sha256 draw orgId newMasterKey names n w := by
  rw [reEncrypt, hentry]
  dsimp only
  rw [if_pos hrevoked]

theorem encrypt_swapped (w v : CredentialVault) (r : Except PyError Randomness) (text : String) :
    (w.swapped sha256 newMasterKey).encrypt c r orgId text = (v.swapped sha256 newMasterKey).encrypt c r orgId text :=
  encrypt_congr rfl r text

theorem reEncrypt_ok_cons (hmaster : w.master = v.master) (hentry : w.lookup? orgId b.1 = some b.2)
    (hactive : b.2.status ≠ .revoked) {text : String} (htext : v.newText c sha256 draw orgId newMasterKey b = .ok text)
    (names : List String) (n : Nat) :
    reEncrypt c sha256 draw orgId newMasterKey (b.1 :: names) n w =
      reEncrypt c sha256 draw orgId newMasterKey names (n + 1)
        (w.putEntry orgId b.1 { b.2 with encryptedValue := text }) := by
  obtain ⟨plaintext, hdecrypt, hencrypt⟩ := Lib.Except.bind_eq_ok.mp htext
  rw [← encrypt_swapped w] at hencrypt
  rw [reEncrypt, hentry]
  dsimp only
  rw [if_neg hactive, decrypt_congr hmaster, hdecrypt]
  dsimp only
  unfold swapped at hencrypt
  rw [hencrypt]
  rfl

/-- Where the rotation raises, it leaves the new master key if it was the encryption. -/
theorem reEncrypt_error_cons (hmaster : w.master = v.master) (hentry : w.lookup? orgId b.1 = some b.2)
    (hactive : b.2.status ≠ .revoked) {err : PyError}
    (hraises : v.newText c sha256 draw orgId newMasterKey b = .error err) (names : List String) (n : Nat) :
    reEncrypt c sha256 draw orgId newMasterKey (b.1 :: names) n w =
      (.error err, if (v.decrypt c orgId b.2.encryptedValue).isOk then w.swapped sha256 newMasterKey else w) := by
  rw [reEncrypt, hentry]
  dsimp only
  rw [if_neg hactive, decrypt_congr hmaster]
  unfold newText at hraises
  cases hdecrypt : v.decrypt c orgId b.2.encryptedValue with
  | error e =>
    rw [hdecrypt] at hraises
    cases hraises
    rfl
  | ok plaintext =>
    rw [hdecrypt, Lib.Except.ok_bind, ← encrypt_swapped w] at hraises
    dsimp only
    unfold swapped at hraises
    rw [hraises]
    rfl

/-! ## The secrets before -/

theorem lookup?_rewrite_of_notMem {before : List (String × VaultEntry)} {keyName : String}
    (h : keyName ∉ before.map (·.1)) (w : CredentialVault) :
    (v.rewrite c sha256 draw orgId newMasterKey before w).lookup? orgId keyName = w.lookup? orgId keyName := by
  induction before generalizing w with
  | nil => rfl
  | cons b rest ih =>
    rw [List.map_cons, List.mem_cons, not_or] at h
    unfold rewrite
    split
    · split
      · exact ih h.2 w
      · rw [ih h.2, lookup?_putEntry, if_neg fun hsame => h.1 hsame.2]
    · exact ih h.2 w

theorem master_rewrite (before : List (String × VaultEntry)) (w : CredentialVault) :
    (v.rewrite c sha256 draw orgId newMasterKey before w).master = w.master := by
  induction before generalizing w with
  | nil => rfl
  | cons b rest ih =>
    unfold rewrite
    split
    · split
      · exact ih w
      · exact ih _
    · exact ih w

/-- The entries are the vault's, each name once. -/
structure Holds (orgId : String) (entries : List (String × VaultEntry)) (w : CredentialVault) : Prop where
  lookup : ∀ b ∈ entries, w.lookup? orgId b.1 = some b.2
  nodup : (entries.map (·.1)).Nodup

theorem Holds.tail {rest : List (String × VaultEntry)} (h : Holds orgId (b :: rest) w) : Holds orgId rest w :=
  ⟨fun a ha => h.lookup a (List.mem_cons_of_mem _ ha), (List.nodup_cons.mp h.nodup).2⟩

theorem Holds.putEntry {rest : List (String × VaultEntry)} (h : Holds orgId (b :: rest) w) (entry : VaultEntry) :
    Holds orgId rest (w.putEntry orgId b.1 entry) := by
  obtain ⟨hnot, hnodup⟩ := List.nodup_cons.mp h.nodup
  refine ⟨fun a ha => ?_, hnodup⟩
  rw [lookup?_putEntry, if_neg]
  · exact h.lookup a (List.mem_cons_of_mem _ ha)
  · rintro ⟨-, hsame⟩
    exact hnot (List.mem_map.mpr ⟨a, ha, hsame⟩)

theorem rewrite_revoked_cons (hrevoked : b.2.status = .revoked) (rest : List (String × VaultEntry))
    (w : CredentialVault) : v.rewrite c sha256 draw orgId newMasterKey (b :: rest) w =
      v.rewrite c sha256 draw orgId newMasterKey rest w := by
  rw [rewrite]
  split
  · rw [if_pos hrevoked]
  · rfl

theorem rewrite_ok_cons (hactive : b.2.status ≠ .revoked) {text : String}
    (htext : v.newText c sha256 draw orgId newMasterKey b = .ok text) (rest : List (String × VaultEntry))
    (w : CredentialVault) : v.rewrite c sha256 draw orgId newMasterKey (b :: rest) w =
      v.rewrite c sha256 draw orgId newMasterKey rest
        (w.putEntry orgId b.1 { b.2 with encryptedValue := text }) := by
  rw [rewrite, htext]
  dsimp only
  rw [if_neg hactive]

theorem reEncrypt_before {before after : List (String × VaultEntry)} (h : Holds orgId (before ++ after) w)
    (hmaster : w.master = v.master) (hpasses : ∀ b ∈ before, v.Passes c sha256 draw orgId newMasterKey b) (n : Nat) :
    ∃ m, reEncrypt c sha256 draw orgId newMasterKey ((before ++ after).map (·.1)) n w =
      reEncrypt c sha256 draw orgId newMasterKey (after.map (·.1)) m
        (v.rewrite c sha256 draw orgId newMasterKey before w) ∧
      Holds orgId after (v.rewrite c sha256 draw orgId newMasterKey before w) := by
  induction before generalizing w n with
  | nil => exact ⟨n, rfl, h⟩
  | cons b rest ih =>
    have hentry := h.lookup b List.mem_cons_self
    have hrest : ∀ a ∈ rest, v.Passes c sha256 draw orgId newMasterKey a := fun a ha =>
      hpasses a (List.mem_cons_of_mem _ ha)
    rw [List.cons_append] at h
    rw [List.cons_append, List.map_cons]
    by_cases hrevoked : b.2.status = .revoked
    · rw [reEncrypt_revoked_cons hentry hrevoked, rewrite_revoked_cons hrevoked]
      exact ih h.tail hmaster hrest n
    · obtain ⟨text, htext⟩ := (hpasses b List.mem_cons_self).resolve_left hrevoked
      rw [reEncrypt_ok_cons hmaster hentry hrevoked htext, rewrite_ok_cons hrevoked htext]
      exact ih (h.putEntry { b.2 with encryptedValue := text }) hmaster hrest (n + 1)

theorem lookup?_rewrite_of_mem {before : List (String × VaultEntry)} (h : Holds orgId before w)
    (hpasses : ∀ b ∈ before, v.Passes c sha256 draw orgId newMasterKey b) (hb : b ∈ before)
    (hactive : b.2.status ≠ .revoked) {text : String}
    (htext : v.newText c sha256 draw orgId newMasterKey b = .ok text) :
    (v.rewrite c sha256 draw orgId newMasterKey before w).lookup? orgId b.1 =
      some { b.2 with encryptedValue := text } := by
  induction before generalizing w with
  | nil => cases hb
  | cons a rest ih =>
    obtain ⟨hnot, -⟩ := List.nodup_cons.mp h.nodup
    have hrest : ∀ a ∈ rest, v.Passes c sha256 draw orgId newMasterKey a := fun a ha =>
      hpasses a (List.mem_cons_of_mem _ ha)
    rcases List.mem_cons.mp hb with rfl | hb
    · rw [rewrite_ok_cons hactive htext, lookup?_rewrite_of_notMem hnot, lookup?_putEntry, if_pos ⟨rfl, rfl⟩]
    · by_cases hrevoked : a.2.status = .revoked
      · rw [rewrite_revoked_cons hrevoked]
        exact ih h.tail hrest hb
      · obtain ⟨other, hother⟩ := (hpasses a List.mem_cons_self).resolve_left hrevoked
        rw [rewrite_ok_cons hrevoked hother]
        exact ih (h.putEntry _) hrest hb

/-- The secrets are as before only if each new text is the old one. -/
theorem stored_rewrite_iff {before : List (String × VaultEntry)} (h : Holds orgId before w)
    (hpasses : ∀ b ∈ before, v.Passes c sha256 draw orgId newMasterKey b) :
    (v.rewrite c sha256 draw orgId newMasterKey before w).stored = w.stored ↔
      ∀ b ∈ before, b.2.status = .revoked ∨
        v.newText c sha256 draw orgId newMasterKey b = .ok b.2.encryptedValue := by
  constructor
  · intro hstored b hb
    by_cases hrevoked : b.2.status = .revoked
    · exact .inl hrevoked
    · obtain ⟨text, htext⟩ := (hpasses b hb).resolve_left hrevoked
      have hnew := lookup?_rewrite_of_mem h hpasses hb hrevoked htext
      unfold lookup? at hnew
      rw [hstored] at hnew
      have hsame := congrArg VaultEntry.encryptedValue (Option.some.inj ((h.lookup b hb).symm.trans hnew))
      refine .inr ?_
      rw [htext, hsame]
  · intro hsame
    induction before with
    | nil => rfl
    | cons b rest ih =>
      have hrest := ih h.tail (fun a ha => hpasses a (List.mem_cons_of_mem _ ha)) fun a ha =>
        hsame a (List.mem_cons_of_mem _ ha)
      by_cases hrevoked : b.2.status = .revoked
      · rw [rewrite_revoked_cons hrevoked]
        exact hrest
      · have htext := (hsame b List.mem_cons_self).resolve_left hrevoked
        rw [rewrite_ok_cons hrevoked htext, putEntry_self (h.lookup b List.mem_cons_self)]
        exact hrest

/-! ## The whole rotation -/

theorem FailsAt.cons {rest before : List (String × VaultEntry)} {a : String × VaultEntry}
    (hpass : v.Passes c sha256 draw orgId newMasterKey a)
    (h : v.FailsAt c sha256 draw orgId newMasterKey rest before b) :
    v.FailsAt c sha256 draw orgId newMasterKey (a :: rest) (a :: before) b := by
  obtain ⟨⟨after, rfl⟩, hpasses, hactive, hraises⟩ := h
  exact ⟨⟨after, rfl⟩, List.forall_mem_cons.mpr ⟨hpass, hpasses⟩, hactive, hraises⟩

theorem exists_failsAt {entries : List (String × VaultEntry)} (h : Holds orgId entries w) (hmaster : w.master = v.master)
    {n : Nat} {err : PyError}
    (hraises : (reEncrypt c sha256 draw orgId newMasterKey (entries.map (·.1)) n w).1 = .error err) :
    ∃ before b, v.FailsAt c sha256 draw orgId newMasterKey entries before b := by
  induction entries generalizing w n with
  | nil => cases hraises
  | cons b rest ih =>
    have hentry := h.lookup b List.mem_cons_self
    rw [List.map_cons] at hraises
    by_cases hrevoked : b.2.status = .revoked
    · rw [reEncrypt_revoked_cons hentry hrevoked] at hraises
      obtain ⟨before, b', hfails⟩ := ih h.tail hmaster hraises
      exact ⟨b :: before, b', hfails.cons (.inl hrevoked)⟩
    · cases htext : v.newText c sha256 draw orgId newMasterKey b with
      | error err => exact ⟨[], b, ⟨rest, rfl⟩, nofun, hrevoked, err, htext⟩
      | ok text =>
        rw [reEncrypt_ok_cons hmaster hentry hrevoked htext] at hraises
        obtain ⟨before, b', hfails⟩ := ih (h.putEntry _) hmaster hraises
        exact ⟨b :: before, b', hfails.cons (.inr ⟨text, htext⟩)⟩

theorem holds_orgStore (h : (v.orgStore orgId).keys.Nodup) : Holds orgId (v.orgStore orgId) v := by
  refine ⟨fun b hb => ?_, h⟩
  have hget := (Dict.mem_iff_get? _ h b.1 b.2).mp hb
  unfold orgStore at hget
  unfold lookup?
  cases hstore : v.stored.get? orgId with
  | none =>
    rw [hstore] at hget
    cases hget
  | some store =>
    rw [hstore] at hget
    exact hget

theorem rotateOrgKey_raises_iff {err : PyError} {after : CredentialVault} :
    v.rotateOrgKey c sha256 draw orgId newMasterKey = (.error err, after) ↔
      reEncrypt c sha256 draw orgId newMasterKey ((v.orgStore orgId).map (·.1)) 0 v = (.error err, after) := by
  unfold rotateOrgKey orgStore
  split
  · next hnone =>
    rw [hnone]
    exact iff_of_false nofun nofun
  · next hempty =>
    rw [hempty]
    exact iff_of_false nofun nofun
  · next store _ hstore =>
    rw [hstore, Option.getD_some]
    unfold Dict.keys
    generalize reEncrypt c sha256 draw orgId newMasterKey (store.map (·.1)) 0 v = result
    obtain ⟨result, w⟩ := result
    cases result with
    | error e => exact Iff.rfl
    | ok n => exact iff_of_false nofun nofun

/-- What a rotation leaves that raises. -/
theorem rotateOrgKey_of_failsAt (hnodup : (v.orgStore orgId).keys.Nodup) {before : List (String × VaultEntry)}
    (h : v.FailsAt c sha256 draw orgId newMasterKey (v.orgStore orgId) before b) :
    ∃ err, v.rotateOrgKey c sha256 draw orgId newMasterKey =
      (.error err,
        if (v.decrypt c orgId b.2.encryptedValue).isOk then
          (v.rewrite c sha256 draw orgId newMasterKey before v).swapped sha256 newMasterKey
        else v.rewrite c sha256 draw orgId newMasterKey before v) := by
  obtain ⟨⟨rest, hposition⟩, hpasses, hactive, err, herr⟩ := h
  have hholds := holds_orgStore hnodup
  rw [hposition] at hholds
  obtain ⟨m, hloop, hrest⟩ := reEncrypt_before hholds rfl hpasses 0
  refine ⟨err, ?_⟩
  rw [rotateOrgKey_raises_iff, hposition, hloop, List.map_cons]
  exact reEncrypt_error_cons (master_rewrite before v) (hrest.lookup b List.mem_cons_self) hactive herr _ _

theorem unchanged_iff (hnodup : (v.orgStore orgId).keys.Nodup) {before : List (String × VaultEntry)}
    (h : v.FailsAt c sha256 draw orgId newMasterKey (v.orgStore orgId) before b) :
    let after := (v.rotateOrgKey c sha256 draw orgId newMasterKey).2
    after.stored = v.stored ∧ after.master = v.master ↔
      (∀ a ∈ before, a.2.status = .revoked ∨
        v.newText c sha256 draw orgId newMasterKey a = .ok a.2.encryptedValue) ∧
      ((∃ err, v.decrypt c orgId b.2.encryptedValue = .error err) ∨ masterBytes sha256 newMasterKey = v.master) := by
  have hholds : Holds orgId before v := by
    obtain ⟨⟨rest, hposition⟩, -⟩ := h
    obtain ⟨hlookup, hnames⟩ := holds_orgStore hnodup
    rw [hposition] at hlookup hnames
    rw [List.map_append] at hnames
    exact ⟨fun a ha => hlookup a (List.mem_append_left _ ha), (List.nodup_append.mp hnames).1⟩
  obtain ⟨err, hrotate⟩ := rotateOrgKey_of_failsAt hnodup h
  have hstored := stored_rewrite_iff hholds h.passes
  intro after
  have hafter : after = _ := congrArg Prod.snd hrotate
  rw [hafter]
  cases hdecrypt : v.decrypt c orgId b.2.encryptedValue with
  | error e =>
    have hmaster : (v.rewrite c sha256 draw orgId newMasterKey before v).master = v.master := master_rewrite before v
    exact and_congr hstored (iff_of_true hmaster (.inl ⟨e, rfl⟩))
  | ok plaintext =>
    refine and_congr hstored ⟨.inr, fun hkey => ?_⟩
    rcases hkey with ⟨e, he⟩ | hkey
    · cases he
    · exact hkey

/-- **A rotation that raises leaves the vault as it was just when no secret before has got another text, and it is the
decryption that raises, or the new master key is the old one.** -/
theorem allOrNothing_iff (hnodup : (v.orgStore orgId).keys.Nodup) : v.AllOrNothing c sha256 draw orgId newMasterKey ↔
    ∀ before b, v.FailsAt c sha256 draw orgId newMasterKey (v.orgStore orgId) before b →
      (∀ a ∈ before, a.2.status = .revoked ∨
        v.newText c sha256 draw orgId newMasterKey a = .ok a.2.encryptedValue) ∧
      ((∃ err, v.decrypt c orgId b.2.encryptedValue = .error err) ∨ masterBytes sha256 newMasterKey = v.master) := by
  constructor
  · intro h before b hfails
    obtain ⟨err, hrotate⟩ := rotateOrgKey_of_failsAt hnodup hfails
    obtain ⟨hmaster, hstored, -⟩ := h ⟨err, by rw [hrotate]⟩
    exact (unchanged_iff hnodup hfails).mp ⟨hstored, hmaster⟩
  · rintro h ⟨err, herr⟩
    have hraises : v.rotateOrgKey c sha256 draw orgId newMasterKey =
        (.error err, (v.rotateOrgKey c sha256 draw orgId newMasterKey).2) := by
      rw [← herr]
    have hloop := congrArg Prod.fst (rotateOrgKey_raises_iff.mp hraises)
    obtain ⟨before, b, hfails⟩ := exists_failsAt (holds_orgStore hnodup) rfl hloop
    obtain ⟨hstored, hmaster⟩ := (unchanged_iff hnodup hfails).mpr (h before b hfails)
    exact ⟨hmaster, hstored, fun org keyName => retrieve_congr hmaster hstored keyName⟩

/-- A secret whose text is too short to decrypt. -/
def brokenSecret : CredentialVault where
  master := masterBytes id firstKey
  stored := [("acme", [("key", { orgId := "acme", keyName := "key", encryptedValue := "", maskedValue := "***" })])]

theorem broken_secret_kept :
    brokenSecret.AllOrNothing samplePrimitives id (fun _ => .ok sampleRandom) "acme" secondKey := by
  refine (allOrNothing_iff (by decide)).mpr fun before b hfails => ?_
  obtain ⟨⟨rest, hposition⟩, -⟩ := hfails
  cases before with
  | nil =>
    obtain ⟨rfl, -⟩ := List.cons_eq_cons.mp hposition
    exact ⟨nofun, .inl ⟨_, rfl⟩⟩
  | cons a before =>
    have hlength := congrArg List.length hposition
    simp [orgStore, brokenSecret, Dict.get?] at hlength

def twoSecrets : CredentialVault :=
  ((((ofMasterKey id firstKey []).store samplePrimitives (.ok sampleRandom) "acme" "a" "sk" []).2.store samplePrimitives
    (.ok sampleRandom) "acme" "b" "sk" [])).2

def noRandomness (keyName : String) : Except PyError Randomness :=
  if keyName = "b" then .error (.other "OSError" "urandom") else .ok sampleRandom

/-- The rotation raises at `b`, which can then no longer be read. -/
theorem half_rotated_secret_lost : ¬ ∀ (c : Primitives) (sha256 : List UInt8 → List UInt8)
    (draw : String → Except PyError Randomness) (orgId newMasterKey : String) (v : CredentialVault), c.Correct →
      (v.orgStore orgId).keys.Nodup → v.AllOrNothing c sha256 draw orgId newMasterKey := by
  intro h
  have hall := h samplePrimitives id noRandomness "acme" secondKey twoSecrets samplePrimitives_correct (by decide +kernel)
  obtain ⟨-, -, hsame⟩ := hall ⟨.other "OSError" "urandom", by decide +kernel⟩
  have hread := congrArg Except.toOption (hsame "acme" "b")
  revert hread
  decide +kernel

end Occp.Security.CredentialVault
