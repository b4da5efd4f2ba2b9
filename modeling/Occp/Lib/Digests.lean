import Mathlib.Algebra.Group.Nat.Defs
import Mathlib.Data.List.Basic

/-!
# Digests

What is assumed of a hash, about the texts that a run hashes and no others.
-/

namespace Occp.Lib

variable {α β : Type} {hash : α → β}

/-- No two of the texts have one hash. -/
def CollisionFree (hash : α → β) (texts : List α) : Prop :=
  ∀ x ∈ texts, ∀ y ∈ texts, hash x = hash y → x = y

instance [DecidableEq α] [DecidableEq β] (texts : List α) : Decidable (CollisionFree hash texts) :=
  inferInstanceAs (Decidable (∀ x ∈ texts, ∀ y ∈ texts, hash x = hash y → x = y))

def hexDigits : List Char := "0123456789abcdef".toList

/-- A digest is written with 64 hex digits. -/
structure HexDigest (sha256 : String → String) : Prop where
  length : ∀ x, (sha256 x).length = 64
  digits : ∀ x, ∀ c ∈ (sha256 x).toList, c ∈ hexDigits

theorem HexDigest.ne_empty {sha256 : String → String} (h : HexDigest sha256) (x : String) : sha256 x ≠ "" := by
  intro hempty
  have hlen := h.length x
  rw [hempty] at hlen
  simp at hlen

/-- A digest of 64 hex digits, for samples: no two short texts share one. -/
def sampleDigest (text : String) : String :=
  let sum := text.toByteArray.data.toList.foldl (fun sum b => (sum * 257 + b.toNat + 1) % 2 ^ 256) 7
  String.ofList ((List.range 64).map fun i => Nat.digitChar (sum / 16 ^ i % 16))

theorem sampleDigest_hex : HexDigest sampleDigest where
  length x := by simp [sampleDigest]
  digits x c hc := by
    have hdigit : ∀ d < 16, Nat.digitChar d ∈ hexDigits := by decide
    simp only [sampleDigest, String.toList_ofList, List.mem_map] at hc
    obtain ⟨i, -, rfl⟩ := hc
    exact hdigit _ (Nat.mod_lt _ (by decide))

end Occp.Lib
