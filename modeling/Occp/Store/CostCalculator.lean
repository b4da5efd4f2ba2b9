import Mathlib.Data.Rat.Floor
import Occp.Lib.Rounding
import Occp.Value

/-!
# The audit's cost calculator (`store/cost_calculator.py`)

Dollars are exact here, and rounded where the code rounds them.
-/

namespace Occp.Costs

open Lib (roundTo)

/-- USD per million tokens. -/
structure PricingRow where
  input : Rat
  output : Rat
  cacheRead : Rat
  cacheCreation5m : Rat
  cacheCreation1h : Rat

def haiku45 : PricingRow := ⟨1, 5, 1 / 10, 5 / 4, 2⟩

def sonnet46 : PricingRow := ⟨3, 15, 3 / 10, 15 / 4, 6⟩

def opus47 : PricingRow := ⟨5, 25, 1 / 2, 25 / 4, 10⟩

def modelPricing : Dict PricingRow :=
  [("claude-haiku-4-5", haiku45), ("claude-haiku-45", haiku45), ("claude-sonnet-4-6", sonnet46),
    ("claude-sonnet-46", sonnet46), ("claude-opus-4-7", opus47), ("claude-opus-47", opus47)]

/-- The longest key that the id begins with. -/
def bestKey (modelId : String) : List String → Option String → Option String
  | [], best => best
  | key :: keys, best =>
    if key.toList.isPrefixOf modelId.toList && best.all (fun b => b.length < key.length) then
      bestKey modelId keys (some key)
    else bestKey modelId keys best

/-- `_lookup_pricing`. -/
def lookupPricing (modelId : String) : Option PricingRow :=
  if modelId = "" then none
  else
    match modelPricing.get? modelId with
    | some row => some row
    | none => (bestKey modelId modelPricing.keys none).bind modelPricing.get?

/-- A count that is missing or negative is 0. -/
def tokens (n : Option Int) : Int := max 0 (n.getD 0)

def computeUsd (modelId : Option String)
    (inputTokens outputTokens cacheReadInputTokens cacheCreationInputTokens : Option Int)
    (ephemeral5mInputTokens ephemeral1hInputTokens : Option Int) : Option Rat :=
  match modelId with
  | none => none
  | some modelId =>
    match lookupPricing modelId with
    | none => none
    | some pricing =>
      let (write5m, write1h) :=
        match ephemeral5mInputTokens, ephemeral1hInputTokens with
        | none, none => (tokens cacheCreationInputTokens, 0)
        | _, _ => (tokens ephemeral5mInputTokens, tokens ephemeral1hInputTokens)
      let cost := (tokens inputTokens * pricing.input + tokens outputTokens * pricing.output +
        tokens cacheReadInputTokens * pricing.cacheRead + write5m * pricing.cacheCreation5m +
        write1h * pricing.cacheCreation1h) / 1000000
      some (roundTo 8 cost)

/-! ## Names -/

section Names

variable {modelId key : String} {keys : List String} {best : Option String}

theorem bestKey_mem (h : bestKey modelId keys best = some key) :
    best = some key ∨ key ∈ keys ∧ key.toList <+: modelId.toList := by
  induction keys generalizing best with
  | nil => exact .inl h
  | cons first keys ih =>
    rw [bestKey] at h
    split at h
    · next hfirst =>
      rw [Bool.and_eq_true, List.isPrefixOf_iff_prefix] at hfirst
      rcases ih h with heq | ⟨hmem, hpre⟩
      · rw [← Option.some.inj heq]
        exact .inr ⟨List.mem_cons_self, hfirst.1⟩
      · exact .inr ⟨List.mem_cons_of_mem _ hmem, hpre⟩
    · exact (ih h).imp_right fun hkey => ⟨List.mem_cons_of_mem _ hkey.1, hkey.2⟩

theorem bestKey_eq_none (h : bestKey modelId keys best = none) :
    best = none ∧ ∀ key ∈ keys, ¬ key.toList <+: modelId.toList := by
  induction keys generalizing best with
  | nil => exact ⟨h, by simp⟩
  | cons first keys ih =>
    rw [bestKey] at h
    split at h
    · cases (ih h).1
    · next hfirst =>
      obtain ⟨hbest, hkeys⟩ := ih h
      refine ⟨hbest, List.forall_mem_cons.mpr ⟨fun hpre => hfirst ?_, hkeys⟩⟩
      rw [hbest, Bool.and_eq_true, List.isPrefixOf_iff_prefix]
      exact ⟨hpre, rfl⟩

/-- A price that is found is that of a key that the id begins with. -/
theorem lookupPricing_eq_some {row : PricingRow} (h : lookupPricing modelId = some row) :
    ∃ key ∈ modelPricing.keys, key.toList <+: modelId.toList ∧ modelPricing.get? key = some row := by
  unfold lookupPricing at h
  split at h
  · cases h
  · split at h
    · next hget =>
      cases h
      exact ⟨modelId, List.mem_map.mpr ⟨_, Dict.mem_of_get? hget, rfl⟩, List.prefix_rfl, hget⟩
    · obtain ⟨key, hkey, hget⟩ := Option.bind_eq_some_iff.mp h
      rcases bestKey_mem hkey with hnone | ⟨hmem, hpre⟩
      · cases hnone
      · exact ⟨key, hmem, hpre, hget⟩

theorem keys_priced : ∀ key ∈ modelPricing.keys, (modelPricing.get? key).isSome = true := by decide

/-- No price is found just when the id begins with no key. -/
theorem lookupPricing_eq_none_iff :
    lookupPricing modelId = none ↔ ∀ key ∈ modelPricing.keys, ¬ key.toList <+: modelId.toList := by
  constructor
  · intro h
    unfold lookupPricing at h
    split at h
    · next hempty =>
      have hkeys : ∀ key ∈ modelPricing.keys, ¬ key.toList <+: [] := by decide
      rw [hempty]
      exact hkeys
    · split at h
      · cases h
      · cases hbest : bestKey modelId modelPricing.keys none with
        | none => exact (bestKey_eq_none hbest).2
        | some key =>
          rw [hbest, Option.bind_some] at h
          rcases bestKey_mem hbest with hnone | ⟨hmem, -⟩
          · cases hnone
          · have hpriced := keys_priced key hmem
            rw [h] at hpriced
            cases hpriced
  · intro h
    cases hlookup : lookupPricing modelId with
    | none => rfl
    | some row =>
      obtain ⟨key, hmem, hpre, -⟩ := lookupPricing_eq_some hlookup
      exact absurd hpre (h key hmem)

end Names

end Occp.Costs
