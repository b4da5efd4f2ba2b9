import Mathlib.Data.Fintype.EquivFin
import Occp.Lib.Symbolic
import Occp.Security.Signing

/-!
# Forged signatures

Signatures of the symbolic model are made with the private key only, and tags with the key of the HMAC only. The
verifier takes a public key for the key of an HMAC when the envelope says so.
-/

namespace Occp.Security

open Lib.Symbolic

/-! ## The libraries of the symbolic model -/

structure Texts where
  hex : Term → String
  encode : Term → String
  decode : String → Except PyError Term
  decode_encode : ∀ t, decode (encode t) = .ok t

def symbolicEd25519 : Ed25519 Term where
  isPrivateKey _ := true
  publicKey := .pub
  sign := .sign
  verify publicKey signature content :=
    match publicKey with
    | .pub privateKey =>
      if signature = .sign privateKey content then .ok () else .error (.other "InvalidSignature" "")
    | _ => .error (.valueError "An Ed25519 public key is 32 bytes long")

def symbolicLibraries (texts : Texts) (hasEd25519 : Bool) : Libraries Term where
  sha256 := .hash
  hex := texts.hex
  hmac := .mac
  b64encode := texts.encode
  b64decode := texts.decode
  ed25519 := if hasEd25519 then some symbolicEd25519 else none

/-! ## Holders of keys, and an adversary -/

/-- Trusted keys with the names of their private keys, the contents signed with each of these, and what the
adversary has seen. -/
structure World (lib : Libraries Term) where
  keys : Dict Nat
  signed : List (Nat × Term)
  seen : Term → Prop
  public_seen : ∀ id n, keys.get? id = some n → seen (lib.publicBytes (.name n))
  private_kept : ∀ id n, keys.get? id = some n → ¬ Derivable seen (.name n)
  made_by_holder : ∀ t n content, seen t → lib.sigBytes (.name n) content ∈ t.parts → (n, content) ∈ signed

namespace World

variable {lib : Libraries Term} (w : World lib)

def verifier (maxAgeSeconds : Rat) : SignatureVerifier where
  trustedKeys := w.keys.map fun e => (e.1, (KeyPair.generate lib (.name e.2) e.1).publicKey)
  maxAgeSeconds := maxAgeSeconds

/-- The adversary has the bytes of the signature. The other fields are not secret. -/
def CanBuild (e : SignatureEnvelope) : Prop := ∀ t, lib.b64decode e.signature = .ok t → Derivable w.seen t

def HasSigned (keyId : String) (content : Term) : Prop :=
  ∃ n, w.keys.get? keyId = some n ∧ (n, content) ∈ w.signed

/-- No envelope with this algorithm that the adversary can build passes for a content that has not been signed. -/
def Unforgeable (algorithm : String) : Prop :=
  ∀ (e : SignatureEnvelope) (content : Term) (expectedKeyId : String) (maxAgeSeconds now : Rat), w.CanBuild e →
    e.algorithm = algorithm → (w.verifier maxAgeSeconds).Accepts lib content e expectedKeyId now →
      w.HasSigned e.keyId content

end World

namespace World

variable {lib : Libraries Term} (w : World lib)

theorem get?_trustedKeys (maxAgeSeconds : Rat) (id : String) : (w.verifier maxAgeSeconds).trustedKeys.get? id =
    (w.keys.get? id).map fun n => lib.b64encode (lib.publicBytes (.name n)) :=
  Dict.get?_map (fun n => lib.b64encode (lib.publicBytes (.name n))) w.keys id

def wordOf : Term → Nat
  | .data word => word
  | _ => 0

theorem exists_unsigned : ∃ word, ∀ n, (n, Term.data word) ∉ w.signed := by
  obtain ⟨word, hword⟩ := Infinite.exists_notMem_finset (w.signed.map fun s => wordOf s.2).toFinset
  refine ⟨word, fun n hmem => hword ?_⟩
  rw [List.mem_toFinset]
  exact List.mem_map.mpr ⟨_, hmem, rfl⟩

end World

/-! ## Each algorithm -/

section

variable {texts : Texts}

theorem exists_key_of_fits {hasEd25519 : Bool} (w : World (symbolicLibraries texts hasEd25519)) {content : Term}
    {e : SignatureEnvelope} {maxAgeSeconds : Rat}
    (h : (w.verifier maxAgeSeconds).SignatureFits (symbolicLibraries texts hasEd25519) content e) :
    ∃ n sig, w.keys.get? e.keyId = some n ∧ texts.decode e.signature = .ok sig ∧
      SignatureVerifier.checkSignature (symbolicLibraries texts hasEd25519) e.algorithm
        ((symbolicLibraries texts hasEd25519).publicBytes (.name n)) sig content = .ok () := by
  obtain ⟨pubB64, sig, pub, hget, hsig, hpub, hcheck⟩ := h
  rw [w.get?_trustedKeys] at hget
  obtain ⟨n, hkey, rfl⟩ := Option.map_eq_some_iff.mp hget
  cases (texts.decode_encode _).symm.trans hpub
  exact ⟨n, sig, hkey, hsig, hcheck⟩

theorem verify_symbolicEd25519 {privateKey sig content : Term}
    (h : symbolicEd25519.verify (.pub privateKey) sig content = .ok ()) : sig = .sign privateKey content := by
  unfold symbolicEd25519 at h
  dsimp only at h
  split at h
  · next heq => exact heq
  · cases h

theorem mem_signed_of_sign (w : World (symbolicLibraries texts true)) {id : String} {n : Nat} {content : Term}
    (hkey : w.keys.get? id = some n) (h : Derivable w.seen (.sign (.name n) content)) : (n, content) ∈ w.signed := by
  obtain ⟨u, hseen, hpart⟩ := h.sign_part (w.private_kept id n hkey)
  exact w.made_by_holder u n content hseen hpart

/-- Only the holder of a key makes signatures for the algorithms other than HMAC. -/
theorem unforgeable_of_ne {hasEd25519 : Bool} (w : World (symbolicLibraries texts hasEd25519)) {algorithm : String}
    (hne : algorithm ≠ "hmac-sha256") : w.Unforgeable algorithm := by
  intro e content expectedKeyId maxAgeSeconds now hbuild halg haccepts
  obtain ⟨-, -, -, hfits⟩ := SignatureVerifier.accepts_iff.mp haccepts
  obtain ⟨n, sig, hkey, hsig, hcheck⟩ := exists_key_of_fits w hfits
  rcases SignatureVerifier.checkSignature_iff.mp hcheck with ⟨hmac, -⟩ | ⟨-, ed, hed, hverify⟩
  · exact absurd (halg.symm.trans hmac) hne
  · cases hasEd25519 with
    | false => cases hed
    | true =>
      cases hed
      have heq := verify_symbolicEd25519 hverify
      have hderivable := hbuild sig hsig
      rw [heq] at hderivable
      exact ⟨n, hkey, mem_signed_of_sign w hkey hderivable⟩

/-- A tag under a public key, which passes for a signature with HMAC. -/
def forged (texts : Texts) (hasEd25519 : Bool) (id : String) (n word : Nat) : SignatureEnvelope where
  payloadHash := texts.hex (.hash (.data word))
  signature := texts.encode (.mac ((symbolicLibraries texts hasEd25519).publicBytes (.name n)) (.data word))
  keyId := id
  timestamp := 0
  algorithm := "hmac-sha256"

theorem canBuild_forged {hasEd25519 : Bool} (w : World (symbolicLibraries texts hasEd25519)) {id : String} {n : Nat}
    (hkey : w.keys.get? id = some n) (word : Nat) : w.CanBuild (forged texts hasEd25519 id n word) := by
  intro t ht
  cases (texts.decode_encode _).symm.trans ht
  exact .mac (.known (w.public_seen id n hkey)) (.data word)

theorem accepts_forged {hasEd25519 : Bool} (w : World (symbolicLibraries texts hasEd25519)) {id : String} {n : Nat}
    (hkey : w.keys.get? id = some n) (word : Nat) :
    (w.verifier 0).Accepts (symbolicLibraries texts hasEd25519) (.data word) (forged texts hasEd25519 id n word) "" 0 := by
  let pub := (symbolicLibraries texts hasEd25519).publicBytes (.name n)
  refine SignatureVerifier.accepts_iff.mpr ⟨(sub_self (0 : Rat)).le, .inl rfl, rfl, ?_⟩
  refine ⟨texts.encode pub, .mac pub (.data word), pub, ?_, texts.decode_encode _, texts.decode_encode _, ?_⟩
  · rw [w.get?_trustedKeys]
    exact congrArg _ hkey
  · exact SignatureVerifier.checkSignature_iff.mpr (.inl ⟨rfl, rfl⟩)

/-- **An adversary passes a content for signed just when the envelope says HMAC and some key is trusted.** -/
theorem unforgeable_iff {hasEd25519 : Bool} (w : World (symbolicLibraries texts hasEd25519)) (algorithm : String) :
    w.Unforgeable algorithm ↔ algorithm ≠ "hmac-sha256" ∨ w.keys = [] := by
  constructor
  · intro h
    by_contra hnot
    rw [not_or, not_not] at hnot
    obtain ⟨rfl, hkeys⟩ := hnot
    obtain ⟨⟨id, n⟩, rest, hcons⟩ := List.exists_cons_of_ne_nil hkeys
    have hkey : w.keys.get? id = some n := by rw [hcons, Dict.get?, if_pos rfl]
    obtain ⟨word, hword⟩ := w.exists_unsigned
    obtain ⟨n', -, hsigned⟩ := h _ _ "" 0 0 (canBuild_forged w hkey word) rfl (accepts_forged w hkey word)
    exact hword n' hsigned
  · rintro (hne | hkeys)
    · exact unforgeable_of_ne w hne
    · intro e content expectedKeyId maxAgeSeconds now _ _ haccepts
      obtain ⟨-, -, -, hfits⟩ := SignatureVerifier.accepts_iff.mp haccepts
      obtain ⟨n, -, hkey, -⟩ := exists_key_of_fits w hfits
      rw [hkeys] at hkey
      cases hkey

end

/-- Texts that stand for the terms by their length. -/
def unaryTexts : Texts where
  hex t := String.ofList (List.replicate (Encodable.encode t) '0')
  encode t := String.ofList (List.replicate (Encodable.encode t) 'A')
  decode s :=
    match Encodable.decode s.toList.length with
    | some t => .ok t
    | none => .error (.other "binascii.Error" "")
  decode_encode t := by rw [String.toList_ofList, List.length_replicate, Encodable.encodek]

def freshKey : World (symbolicLibraries unaryTexts true) where
  keys := [("builder", 0)]
  signed := []
  seen t := t = .pub (.name 0)
  public_seen id n hkey := by
    rw [Dict.get?] at hkey
    split at hkey
    · cases hkey
      rfl
    · cases hkey
  private_kept id n hkey h := by
    obtain ⟨u, rfl, hpart⟩ := h.name_part
    cases List.mem_singleton.mp hpart
  made_by_holder t n content hseen hpart := by
    rw [hseen] at hpart
    cases List.mem_singleton.mp hpart

theorem tag_under_public_key_passes : ¬ ∀ (texts : Texts) (hasEd25519 : Bool)
    (w : World (symbolicLibraries texts hasEd25519)) (algorithm : String), w.Unforgeable algorithm := by
  intro h
  obtain ⟨n, -, hsigned⟩ := h unaryTexts true freshKey "hmac-sha256" (forged unaryTexts true "builder" 0 0)
    (.data 0) "" 0 0 (canBuild_forged freshKey rfl 0) rfl (accepts_forged freshKey rfl 0)
  cases hsigned

end Occp.Security
