import Mathlib.Tactic.Common
import Occp.Lib.Digests
import Occp.Value

/-!
# Skill integrity (`security/supply_chain.py`)

A skill is hashed as one text. Its first check stores the hash, and the checks after it compare. `sha256` is the hex
digest of a text.
-/

namespace Occp.Security

open Lib (CollisionFree)

/-- What the checker reads of a skill. -/
structure Skill where
  id? : Option String := none
  name? : Option String := none
  description? : Option String := none
  trusted : Value := .bool false

namespace Skill

/-- The key that the hash is stored under. -/
def skillId (s : Skill) : String := s.id?.getD "unknown"

def id (s : Skill) : String := s.id?.getD ""

def name (s : Skill) : String := s.name?.getD ""

def description (s : Skill) : String := s.description?.getD ""

def content (s : Skill) : String := s!"{s.id}/{s.name}/{s.description}"

end Skill

structure SkillCheckResult where
  valid : Bool
  skillId : String
  reason : String := ""
  hashSha256 : String := ""
  warnings : List String := []

structure SkillIntegrityChecker where
  knownHashes : Dict String := []

def mismatchReason : String := "Hash mismatch — skill definition may have been tampered with"

/-- `text[:16]`. -/
def short (text : String) : String := String.ofList (text.toList.take 16)

namespace SkillIntegrityChecker

variable (sha256 : String → String)

def registerHash (c : SkillIntegrityChecker) (skillId content : String) : String × SkillIntegrityChecker :=
  let h := sha256 content
  (h, { c with knownHashes := c.knownHashes.set skillId h })

def verify (c : SkillIntegrityChecker) (skillId content : String) : SkillCheckResult × SkillIntegrityChecker :=
  let currentHash := sha256 content
  match c.knownHashes.get? skillId with
  | none =>
    -- first-time registration
    ({ valid := true, skillId, hashSha256 := currentHash
       warnings := ["First registration — hash stored for future verification"] },
      { c with knownHashes := c.knownHashes.set skillId currentHash })
  | some known =>
    if currentHash ≠ known then
      let expected := short known
      let got := short currentHash
      ({ valid := false, skillId, reason := mismatchReason, hashSha256 := currentHash
         warnings := [s!"Expected: {expected}... Got: {got}..."] }, c)
    else ({ valid := true, skillId, hashSha256 := currentHash }, c)

def checkTrusted (c : SkillIntegrityChecker) (s : Skill) : SkillCheckResult × SkillIntegrityChecker :=
  if !s.trusted.truthy then
    ({ valid := false, skillId := s.skillId, reason := "Skill is not in trusted allowlist" }, c)
  else c.verify sha256 s.skillId s.content

inductive Call where
  | register (skillId content : String)
  | verify (skillId content : String)
  | check (s : Skill)

def call (c : SkillIntegrityChecker) : Call → SkillIntegrityChecker
  | .register skillId content => (c.registerHash sha256 skillId content).2
  | .verify skillId content => (c.verify sha256 skillId content).2
  | .check s => (c.checkTrusted sha256 s).2

def run (c : SkillIntegrityChecker) (calls : List Call) : SkillIntegrityChecker := calls.foldl (call sha256) c

/-! ## Stored hashes stay -/

variable {sha256} {c : SkillIntegrityChecker} {key h : String}

theorem verify_of_known (hknown : c.knownHashes.get? key = some h) (content : String) :
    (c.verify sha256 key content).1.valid = decide (sha256 content = h) ∧ (c.verify sha256 key content).2 = c ∧
      (sha256 content ≠ h → (c.verify sha256 key content).1.reason = mismatchReason) := by
  unfold verify
  rw [hknown]
  dsimp only
  split
  · next hne => exact ⟨(decide_eq_false hne).symm, rfl, fun _ => rfl⟩
  · next heq =>
    rw [not_not] at heq
    exact ⟨(decide_eq_true heq).symm, rfl, fun hne => absurd heq hne⟩

theorem verify_of_unknown (hknown : c.knownHashes.get? key = none) (content : String) :
    (c.verify sha256 key content).1.valid = true ∧
      (c.verify sha256 key content).2.knownHashes = c.knownHashes.set key (sha256 content) := by
  unfold verify
  rw [hknown]
  exact ⟨rfl, rfl⟩

theorem verify_keeps (hknown : c.knownHashes.get? key = some h) (skillId content : String) :
    (c.verify sha256 skillId content).2.knownHashes.get? key = some h := by
  cases hother : c.knownHashes.get? skillId with
  | none =>
    have hne : key ≠ skillId := by
      rintro rfl
      rw [hknown] at hother
      cases hother
    rw [(verify_of_unknown hother content).2, Dict.get?_set_of_ne _ _ _ _ hne, hknown]
  | some h' => rw [(verify_of_known hother content).2.1, hknown]

/-- A hash is only replaced by registering another. -/
theorem call_keeps {a : Call} (hknown : c.knownHashes.get? key = some h) (ha : ∀ content, a ≠ .register key content) :
    (c.call sha256 a).knownHashes.get? key = some h := by
  cases a with
  | register skillId content =>
    have hne : key ≠ skillId := by
      rintro rfl
      exact ha content rfl
    exact (Dict.get?_set_of_ne _ _ _ _ hne).trans hknown
  | verify skillId content => exact verify_keeps hknown skillId content
  | check s =>
    have hcall : c.call sha256 (.check s) = (c.checkTrusted sha256 s).2 := rfl
    rw [hcall, checkTrusted]
    split
    · exact hknown
    · exact verify_keeps hknown s.skillId s.content

theorem run_keeps {calls : List Call} (hknown : c.knownHashes.get? key = some h)
    (hcalls : ∀ content, Call.register key content ∉ calls) : (c.run sha256 calls).knownHashes.get? key = some h := by
  induction calls generalizing c with
  | nil => exact hknown
  | cons a calls ih =>
    refine ih (call_keeps hknown fun content ha => ?_) fun content hmem => ?_
    · exact hcalls content (ha ▸ List.mem_cons_self)
    · exact hcalls content (List.mem_cons_of_mem a hmem)

end SkillIntegrityChecker

/-! ## The hashed text -/

/-- Two pairs that are joined with one character are written alike where it is in one of them. -/
theorem join_eq_iff (sep : Char) (a b a' b' : List Char) :
    a ++ sep :: b = a' ++ sep :: b' ↔
      (a = a' ∧ b = b') ∨ (∃ t, a' = a ++ sep :: t ∧ b = t ++ sep :: b') ∨ ∃ t, a = a' ++ sep :: t ∧ b' = t ++ sep :: b := by
  constructor
  · intro h
    rcases List.append_eq_append_iff.mp h with ⟨gap, rfl, hgap⟩ | ⟨gap, rfl, hgap⟩
    · cases gap with
      | nil => exact .inl ⟨(List.append_nil a).symm, (List.cons.inj hgap).2⟩
      | cons c t =>
        obtain ⟨rfl, rfl⟩ := List.cons.inj hgap
        exact .inr (.inl ⟨t, rfl, rfl⟩)
    · cases gap with
      | nil => exact .inl ⟨List.append_nil a', (List.cons.inj hgap).2.symm⟩
      | cons c t =>
        obtain ⟨rfl, rfl⟩ := List.cons.inj hgap
        exact .inr (.inr ⟨t, rfl, rfl⟩)
  · rintro (⟨rfl, rfl⟩ | ⟨t, rfl, rfl⟩ | ⟨t, rfl, rfl⟩)
    · rfl
    · rw [List.append_assoc, List.cons_append]
    · rw [List.append_assoc, List.cons_append]

namespace Skill

variable {s s' : Skill}

/-- Under one id, text is moved over the slash between name and description. -/
def Shifted (s s' : Skill) : Prop :=
  s'.id? = s.id? ∧ ∃ t : String, (s'.name = s.name ++ "/" ++ t ∧ s.description = t ++ "/" ++ s'.description) ∨
    (s.name = s'.name ++ "/" ++ t ∧ s'.description = t ++ "/" ++ s.description)

def Differ (s s' : Skill) : Prop := s'.id? ≠ s.id? ∨ s'.name ≠ s.name ∨ s'.description ≠ s.description

theorem content_toList (s : Skill) :
    s.content.toList = s.id.toList ++ '/' :: (s.name.toList ++ '/' :: s.description.toList) := by
  simp [content, toString]

theorem shifted_iff :
    Shifted s s' ↔ s'.id? = s.id? ∧
      ((∃ t, s'.name.toList = s.name.toList ++ '/' :: t ∧ s.description.toList = t ++ '/' :: s'.description.toList) ∨
        ∃ t, s.name.toList = s'.name.toList ++ '/' :: t ∧ s'.description.toList = t ++ '/' :: s.description.toList) := by
  have hsplit (a b t : String) : a = b ++ "/" ++ t ↔ a.toList = b.toList ++ '/' :: t.toList := by
    rw [← String.toList_inj]
    simp
  unfold Shifted
  simp only [hsplit]
  refine and_congr_right fun _ => ?_
  constructor
  · rintro ⟨t, h | h⟩
    · exact .inl ⟨t.toList, h⟩
    · exact .inr ⟨t.toList, h⟩
  · rintro (⟨t, h⟩ | ⟨t, h⟩)
    · exact ⟨String.ofList t, .inl (by simpa using h)⟩
    · exact ⟨String.ofList t, .inr (by simpa using h)⟩

/-- Skills under one key have one text just where they agree, or text is shifted. -/
theorem content_eq_iff (hkey : s'.skillId = s.skillId) (hdiffer : Differ s s') : s'.content = s.content ↔ Shifted s s' := by
  rw [← String.toList_inj, content_toList, content_toList, shifted_iff]
  by_cases hid : s'.id? = s.id?
  · have hsame : s'.id = s.id := by rw [id, id, hid]
    rw [hsame, List.append_cancel_left_eq, List.cons.injEq, eq_self_iff_true, true_and, join_eq_iff,
      and_iff_right hid]
    constructor
    · rintro (⟨hname, hdescription⟩ | h | h)
      · rcases hdiffer with h | h | h
        · exact absurd hid h
        · exact absurd (String.toList_inj.mp hname) h
        · exact absurd (String.toList_inj.mp hdescription) h
      · exact .inr h
      · exact .inl h
    · rintro (h | h)
      · exact .inr (.inr h)
      · exact .inr (.inl h)
  · -- Only the id "unknown" shares its key with a missing one, and that one has no text.
    refine iff_of_false (fun htext => ?_) fun h => hid h.1
    unfold skillId at hkey
    unfold id at htext
    cases hs : s.id? with
    | none =>
      cases hs' : s'.id? with
      | none => exact hid (hs'.trans hs.symm)
      | some key =>
        rw [hs, hs'] at hkey htext
        have hunknown : key = "unknown" := hkey
        simp [hunknown] at htext
    | some key =>
      cases hs' : s'.id? with
      | none =>
        rw [hs, hs'] at hkey htext
        have hunknown : key = "unknown" := hkey.symm
        simp [hunknown] at htext
      | some key' =>
        rw [hs, hs'] at hkey
        have hsame : key' = key := hkey
        exact hid (by rw [hs, hs', hsame])

end Skill

/-! ## Tampering -/

namespace SkillIntegrityChecker

variable {sha256 : String → String}

/-- The skill is refused, as a mismatch where it is trusted at all. -/
def Detects (sha256 : String → String) (c : SkillIntegrityChecker) (s : Skill) : Prop :=
  (c.checkTrusted sha256 s).1.valid = false ∧
    (s.trusted.truthy = true → (c.checkTrusted sha256 s).1.reason = mismatchReason)

theorem detects_iff (c : SkillIntegrityChecker) (s : Skill) :
    Detects sha256 c s ↔
      s.trusted.truthy = false ∨ ∃ h, c.knownHashes.get? s.skillId = some h ∧ h ≠ sha256 s.content := by
  unfold Detects checkTrusted
  cases s.trusted.truthy with
  | false => simp
  | true =>
    simp only [Bool.not_true, Bool.false_eq_true, if_false, false_or, forall_const, Bool.true_eq_false]
    cases hknown : c.knownHashes.get? s.skillId with
    | none =>
      rw [(verify_of_unknown hknown s.content).1]
      simp
    | some h =>
      obtain ⟨hvalid, -, hreason⟩ := verify_of_known hknown s.content
      rw [hvalid, decide_eq_false_iff_not]
      constructor
      · rintro ⟨hne, -⟩
        exact ⟨h, rfl, fun heq => hne heq.symm⟩
      · rintro ⟨h', heq, hne⟩
        have hne' : sha256 s.content ≠ h := fun hsame => hne (by rw [← Option.some.inj heq, hsame])
        exact ⟨hne', hreason hne'⟩

/-- A later version is refused just when it is not trusted, or has the key of the stored one and no text was shifted over
the slash, or has a key under which another hash is stored. -/
theorem detects_later_iff {c : SkillIntegrityChecker} {s s' : Skill} {later : List Call}
    (hstored : c.knownHashes.get? s.skillId = some (sha256 s.content))
    (hlater : ∀ content, Call.register s.skillId content ∉ later) (hdiffer : Skill.Differ s s')
    (hfree : CollisionFree sha256 [s.content, s'.content]) :
    Detects sha256 (c.run sha256 later) s' ↔
      s'.trusted.truthy = false ∨ (s'.skillId = s.skillId ∧ ¬ Skill.Shifted s s') ∨
        (s'.skillId ≠ s.skillId ∧
          ∃ h, (c.run sha256 later).knownHashes.get? s'.skillId = some h ∧ h ≠ sha256 s'.content) := by
  rw [detects_iff]
  refine or_congr_right ?_
  by_cases hkey : s'.skillId = s.skillId
  · have hkept : (c.run sha256 later).knownHashes.get? s.skillId = some (sha256 s.content) := run_keeps hstored hlater
    have hhash : sha256 s.content = sha256 s'.content ↔ s'.content = s.content := by
      constructor
      · intro h
        exact (hfree _ (by simp) _ (by simp) h).symm
      · intro h
        rw [h]
    rw [hkey, hkept, ← Skill.content_eq_iff hkey hdiffer, ← hhash]
    simp
  · simp [hkey]

def storedSkill : Skill where
  id? := some "deploy"
  name? := some "Deploy/prod"
  description? := some "careful"
  trusted := .bool true

def shiftedSkill : Skill where
  id? := some "deploy"
  name? := some "Deploy"
  description? := some "prod/careful"
  trusted := .bool true

/-- The checker after the stored skill has been checked the first time. -/
def bootstrapped : SkillIntegrityChecker := (checkTrusted Lib.sampleDigest {} storedSkill).2

theorem bootstrapped_hash :
    bootstrapped.knownHashes.get? storedSkill.skillId = some (Lib.sampleDigest storedSkill.content) := rfl

theorem storedSkill_differ : Skill.Differ storedSkill shiftedSkill := .inr (.inl (by decide))

theorem storedSkill_shifted : Skill.Shifted storedSkill shiftedSkill := ⟨rfl, "prod", .inr ⟨by decide, by decide⟩⟩

theorem shifted_content : shiftedSkill.content = storedSkill.content := by
  have hkey : shiftedSkill.skillId = storedSkill.skillId := rfl
  exact (Skill.content_eq_iff hkey storedSkill_differ).mpr storedSkill_shifted

theorem collisionFree_shifted : CollisionFree Lib.sampleDigest [storedSkill.content, shiftedSkill.content] := by
  rw [shifted_content]
  intro x hx y hy _
  simp only [List.mem_cons, List.not_mem_nil, or_false, or_self] at hx hy
  rw [hx, hy]

theorem shifted_skill_passes :
    ¬ ∀ (sha256 : String → String) (c : SkillIntegrityChecker) (s s' : Skill) (later : List Call),
      c.knownHashes.get? s.skillId = some (sha256 s.content) →
      (∀ content, Call.register s.skillId content ∉ later) → Skill.Differ s s' →
      CollisionFree sha256 [s.content, s'.content] → Detects sha256 (c.run sha256 later) s' := by
  intro h
  have hdetects := h Lib.sampleDigest bootstrapped storedSkill shiftedSkill [] bootstrapped_hash (by simp)
    storedSkill_differ collisionFree_shifted
  rw [detects_iff] at hdetects
  rcases hdetects with huntrusted | ⟨hash, hknown, hne⟩
  · cases huntrusted
  · rw [shifted_content] at hne
    exact hne (Option.some.inj (hknown.symm.trans bootstrapped_hash))

theorem detects_later_iff_shifted :
    Detects Lib.sampleDigest (bootstrapped.run Lib.sampleDigest []) shiftedSkill ↔
      shiftedSkill.trusted.truthy = false ∨
        (shiftedSkill.skillId = storedSkill.skillId ∧ ¬ Skill.Shifted storedSkill shiftedSkill) ∨
        (shiftedSkill.skillId ≠ storedSkill.skillId ∧
          ∃ h, (bootstrapped.run Lib.sampleDigest []).knownHashes.get? shiftedSkill.skillId = some h ∧
            h ≠ Lib.sampleDigest shiftedSkill.content) :=
  detects_later_iff bootstrapped_hash (by simp) storedSkill_differ collisionFree_shifted

end SkillIntegrityChecker

end Occp.Security
