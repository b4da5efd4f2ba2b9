import Occp.Policy.Budget
import Occp.Store.CostCalculator

/-!
# Two cost calculators (`policy_engine/budget_policy.py`, `store/cost_calculator.py`)

What the budget charges for a call and what the audit computes for it. Only the audit has prices for the
one-hour cache, and only the budget knows a model by any version.
-/

namespace Occp.Costs

open Lib (roundTo IsDecimal Nearest)
open Policy (Rates priceCall resolveModel pricing modelAliases round6)

/-- The tokens of one call. -/
structure Usage where
  inputTokens : Int := 0
  outputTokens : Int := 0
  cacheReadTokens : Int := 0
  cacheWrite5m : Int := 0
  cacheWrite1h : Int := 0

def charged (model : String) (u : Usage) : Except PyError Rat :=
  priceCall model
    { inputTokens := u.inputTokens, outputTokens := u.outputTokens, cacheReadInputTokens := u.cacheReadTokens,
      cacheCreationInputTokens := u.cacheWrite5m + u.cacheWrite1h }

def audited (model : String) (u : Usage) : Option Rat :=
  computeUsd (some model) (some u.inputTokens) (some u.outputTokens) (some u.cacheReadTokens)
    (some (u.cacheWrite5m + u.cacheWrite1h)) (some u.cacheWrite5m) (some u.cacheWrite1h)

/-- Both have the same cost to six decimals, or neither has one. -/
def Agree (model : String) (u : Usage) : Prop :=
  match charged model u, audited model u with
  | .ok price, some cost => round6 price = round6 cost
  | .error _, none => True
  | _, _ => False

instance (model : String) (u : Usage) : Decidable (Agree model u) := by
  unfold Agree
  split <;> infer_instance

/-! ## Names -/

section Names

variable {model key : String}

theorem lower_append (cs ds : List Char) : Text.lower (cs ++ ds) = Text.lower cs ++ Text.lower ds :=
  List.flatMap_append

/-- What does not end in a space stays at the front. -/
theorem prefix_strip {cs text : List Char} (hhead : ∀ c ∈ cs.head?, Text.isSpace c = false)
    (hlast : ∀ c ∈ cs.getLast?, Text.isSpace c = false) (h : cs <+: text) : cs <+: Text.strip text := by
  obtain ⟨rest, rfl⟩ := h
  cases cs with
  | nil => exact List.nil_prefix
  | cons c cs =>
    have hfront : ((c :: cs) ++ rest).dropWhile Text.isSpace = (c :: cs) ++ rest := by
      rw [List.cons_append, List.dropWhile_cons_of_neg]
      simp [hhead c rfl]
    have hback : (c :: cs).reverse.dropWhile Text.isSpace = (c :: cs).reverse := by
      cases hrev : (c :: cs).reverse with
      | nil => rfl
      | cons d ds =>
        have hd : (c :: cs).getLast? = some d := by
          rw [← List.head?_reverse, hrev, List.head?_cons]
        rw [List.dropWhile_cons_of_neg]
        simp [hlast d hd]
    rw [Text.strip, hfront, List.reverse_append, List.dropWhile_append, hback]
    split
    · exact ⟨[], by rw [List.append_nil, List.reverse_reverse]⟩
    · rw [List.reverse_append, List.reverse_reverse]
      exact List.prefix_append _ _

theorem keys_plain : ∀ key ∈ modelPricing.keys, Text.lower key.toList = key.toList ∧
    key.toList.head?.all (fun c => !Text.isSpace c) = true ∧ key.toList.getLast?.all (fun c => !Text.isSpace c) = true ∧
    (∀ a ∈ modelAliases, a.1.toList.length ≤ key.toList.length) := by
  decide +kernel

/-- A name that begins with a key is resolved like the key. -/
theorem find_alias_eq (hkey : key ∈ modelPricing.keys) (h : key.toList <+: model.toList) :
    (modelAliases.find? fun a => a.1.toList.isPrefixOf (Text.strip (Text.lower model.toList))) =
      modelAliases.find? fun a => a.1.toList.isPrefixOf key.toList := by
  obtain ⟨hlower, hhead, hlast, hlength⟩ := keys_plain key hkey
  have hprefix : key.toList <+: Text.strip (Text.lower model.toList) := by
    obtain ⟨rest, hrest⟩ := h
    rw [Option.all_eq_true] at hhead hlast
    refine prefix_strip (fun c hc => by simpa using hhead c hc) (fun c hc => by simpa using hlast c hc) ?_
    rw [← hrest, lower_append, hlower]
    exact List.prefix_append _ _
  have hsame : ∀ a ∈ modelAliases, a.1.toList.isPrefixOf (Text.strip (Text.lower model.toList)) =
      a.1.toList.isPrefixOf key.toList := by
    intro a ha
    rw [Bool.eq_iff_iff, List.isPrefixOf_iff_prefix, List.isPrefixOf_iff_prefix]
    exact ⟨fun halias => List.prefix_of_prefix_length_le halias hprefix (hlength a ha), fun halias => halias.trans hprefix⟩
  rw [← List.head?_filter, ← List.head?_filter, List.filter_congr hsame]

/-- What the budget would charge for everything but the one-hour cache. -/
def PricingRow.rates (row : PricingRow) : Rates := ⟨row.input, row.output, row.cacheRead, row.cacheCreation5m⟩

theorem family_of_key (hkey : key ∈ modelPricing.keys) {row : PricingRow} (hrow : modelPricing.get? key = some row) :
    ∃ a, (modelAliases.find? fun a => a.1.toList.isPrefixOf key.toList) = some a ∧ pricing.get? a.2 = some row.rates := by
  simp only [modelPricing, Dict.keys, List.map_cons, List.map_nil, List.mem_cons, List.not_mem_nil, or_false] at hkey
  rcases hkey with rfl | rfl | rfl | rfl | rfl | rfl <;> cases hrow <;> exact ⟨_, rfl, rfl⟩

theorem family_of_priced {rates : Rates} (h : pricing.get? model = some rates) :
    ∃ row, lookupPricing model = some row ∧ rates = row.rates := by
  have hmem := Dict.mem_of_get? h
  simp only [pricing, List.mem_cons, List.not_mem_nil, or_false, Prod.mk.injEq] at hmem
  rcases hmem with ⟨rfl, rfl⟩ | ⟨rfl, rfl⟩ | ⟨rfl, rfl⟩
  · exact ⟨haiku45, rfl, rfl⟩
  · exact ⟨sonnet46, rfl, rfl⟩
  · exact ⟨opus47, rfl, rfl⟩

/-- What the audit has a price for is charged at the same rates. -/
theorem resolve_of_lookup {row : PricingRow} (h : lookupPricing model = some row) :
    ∃ canonical, resolveModel model = .ok canonical ∧ pricing.get? canonical = some row.rates := by
  by_cases hexact : (pricing.get? model).isSome
  · obtain ⟨rates, hrates⟩ := Option.isSome_iff_exists.mp hexact
    obtain ⟨row', hrow', rfl⟩ := family_of_priced hrates
    rw [hrow'] at h
    cases h
    exact ⟨model, by rw [resolveModel, if_pos hexact], hrates⟩
  · obtain ⟨key, hkey, hprefix, hrow⟩ := lookupPricing_eq_some h
    obtain ⟨a, hfind, hrates⟩ := family_of_key hkey hrow
    refine ⟨a.2, ?_, hrates⟩
    rw [resolveModel, if_neg hexact]
    simp only [find_alias_eq hkey hprefix, hfind]

/-- A model that the audit has no price for is charged unless its name begins with no alias. -/
theorem resolve_error_iff (h : lookupPricing model = none) :
    (∃ e, resolveModel model = .error e) ↔ ∀ a ∈ modelAliases, ¬ a.1.toList <+: Text.strip (Text.lower model.toList) := by
  have hexact : ¬ (pricing.get? model).isSome := by
    intro hsome
    obtain ⟨rates, hrates⟩ := Option.isSome_iff_exists.mp hsome
    obtain ⟨row, hrow, -⟩ := family_of_priced hrates
    rw [h] at hrow
    cases hrow
  rw [resolveModel, if_neg hexact]
  simp only
  split
  · next a hfind =>
    constructor
    · rintro ⟨e, he⟩
      cases he
    · intro hnone
      have hprefix := List.find?_some hfind
      rw [List.isPrefixOf_iff_prefix] at hprefix
      exact absurd hprefix (hnone a (List.mem_of_find?_eq_some hfind))
  · next hfind =>
    refine ⟨fun _ a ha hprefix => ?_, fun _ => ⟨_, rfl⟩⟩
    rw [← List.isPrefixOf_iff_prefix] at hprefix
    exact List.find?_eq_none.mp hfind a ha hprefix

end Names

/-! ## Costs, in millionths of a dollar -/

/-- What a negative count lacks to 0. -/
def missing (n : Int) : Int := max 0 (-n)

namespace PricingRow

variable (row : PricingRow) (u : Usage)

/-- The price at the rates that both have. -/
def price : Rat :=
  u.inputTokens * row.input + u.outputTokens * row.output + u.cacheReadTokens * row.cacheRead +
    (u.cacheWrite5m + u.cacheWrite1h) * row.cacheCreation5m

/-- What the audit adds: the one-hour cache costs more, and no count is below 0. -/
def excess : Rat :=
  missing u.inputTokens * row.input + missing u.outputTokens * row.output +
    missing u.cacheReadTokens * row.cacheRead +
    (missing u.cacheWrite5m + missing u.cacheWrite1h) * row.cacheCreation5m +
    max 0 u.cacheWrite1h * (row.cacheCreation1h - row.cacheCreation5m)

end PricingRow

/-- No count is negative and nothing is written for an hour. -/
structure Usage.Plain (u : Usage) : Prop where
  input : 0 ≤ u.inputTokens
  output : 0 ≤ u.outputTokens
  cacheRead : 0 ≤ u.cacheReadTokens
  write5m : 0 ≤ u.cacheWrite5m
  write1h : u.cacheWrite1h = 0

section Costs

variable {model : String} {row : PricingRow} {u : Usage}

theorem row_cases (h : lookupPricing model = some row) : row = haiku45 ∨ row = sonnet46 ∨ row = opus47 := by
  obtain ⟨key, -, -, hrow⟩ := lookupPricing_eq_some h
  have hmem := Dict.mem_of_get? hrow
  simp only [modelPricing, List.mem_cons, List.not_mem_nil, or_false, Prod.mk.injEq] at hmem
  tauto

theorem tokens_eq (n : Int) : tokens (some n) = n + missing n := by
  simp only [tokens, missing, Option.getD_some]
  omega

theorem charged_eq (h : lookupPricing model = some row) (u : Usage) :
    charged model u = .ok (row.price u / 1000000) := by
  obtain ⟨canonical, hresolve, hrates⟩ := resolve_of_lookup h
  rw [charged, priceCall, hresolve, Lib.Except.ok_bind, hrates]
  simp [Rates.cost, PricingRow.rates, PricingRow.price, pure, Except.pure]

theorem audited_rounded (h : lookupPricing model = some row) (u : Usage) :
    audited model u = some (roundTo 8 ((tokens (some u.inputTokens) * row.input +
      tokens (some u.outputTokens) * row.output + tokens (some u.cacheReadTokens) * row.cacheRead +
      tokens (some u.cacheWrite5m) * row.cacheCreation5m + tokens (some u.cacheWrite1h) * row.cacheCreation1h) /
      1000000)) := by
  simp only [audited, computeUsd, h]

/-- Costs of whole tokens have eight decimals. -/
theorem isDecimal_cost (h : lookupPricing model = some row) (a b c d e : Int) :
    IsDecimal 8 ((a * row.input + b * row.output + c * row.cacheRead + d * row.cacheCreation5m +
      e * row.cacheCreation1h) / 1000000) := by
  rcases row_cases h with rfl | rfl | rfl
  · refine ⟨100 * a + 500 * b + 10 * c + 125 * d + 200 * e, ?_⟩
    simp only [haiku45]
    push_cast
    ring
  · refine ⟨300 * a + 1500 * b + 30 * c + 375 * d + 600 * e, ?_⟩
    simp only [sonnet46]
    push_cast
    ring
  · refine ⟨500 * a + 2500 * b + 50 * c + 625 * d + 1000 * e, ?_⟩
    simp only [opus47]
    push_cast
    ring

theorem audited_eq (h : lookupPricing model = some row) (u : Usage) :
    audited model u = some ((row.price u + row.excess u) / 1000000) := by
  have hmax : max 0 u.cacheWrite1h = u.cacheWrite1h + missing u.cacheWrite1h := by
    simp only [missing]
    omega
  rw [audited_rounded h, Lib.roundTo_of_isDecimal (isDecimal_cost h _ _ _ _ _)]
  simp only [tokens_eq, PricingRow.price, PricingRow.excess, hmax]
  push_cast
  congr 2
  ring

theorem round6_millionth (q : Rat) : round6 (q / 1000000) = Lib.roundHalfEven q / 1000000 := by
  have hq : q / 1000000 * 10 ^ 6 = q := by
    norm_num
  rw [round6, roundTo, hq]
  norm_num

/-- The same millionth is next to the price with the excess and without. -/
def Absorbed (price excess : Rat) : Prop := ∃ n, Nearest n price ∧ Nearest n (price + excess)

theorem round6_eq_iff (price excess : Rat) :
    round6 (price / 1000000) = round6 ((price + excess) / 1000000) ↔ Absorbed price excess := by
  rw [round6_millionth, round6_millionth, div_left_inj' (by norm_num), Int.cast_inj, eq_comm,
    Lib.roundHalfEven_eq_iff]
  constructor
  · intro h
    exact ⟨_, Lib.nearest_roundHalfEven price, h⟩
  · rintro ⟨n, hprice, hcost⟩
    rwa [(Lib.nearest_roundHalfEven price).unique hprice]

theorem rates_pos (h : lookupPricing model = some row) : 0 < row.input ∧ 0 < row.output ∧ 0 < row.cacheRead ∧
    0 < row.cacheCreation5m ∧ 0 < row.cacheCreation1h - row.cacheCreation5m := by
  rcases row_cases h with rfl | rfl | rfl <;> norm_num [haiku45, sonnet46, opus47]

theorem max_mul_nonneg (n : Int) {rate : Rat} (h : 0 < rate) : 0 ≤ ((max 0 n : Int) : Rat) * rate :=
  mul_nonneg (by exact_mod_cast le_max_left 0 n) h.le

theorem max_eq_zero_of_mul {n : Int} {rate : Rat} (h : 0 < rate) (hzero : ((max 0 n : Int) : Rat) * rate = 0) : n ≤ 0 := by
  have hmax : max 0 n = 0 := by exact_mod_cast (mul_eq_zero.mp hzero).resolve_right h.ne'
  omega

/-- There is no excess just when there is nothing to add. -/
theorem excess_eq_zero_iff (h : lookupPricing model = some row) (u : Usage) : row.excess u = 0 ↔ u.Plain := by
  obtain ⟨hin, hout, hread, h5m, h1h⟩ := rates_pos h
  simp only [PricingRow.excess, missing, add_mul]
  constructor
  · intro hzero
    have ha := max_mul_nonneg (-u.inputTokens) hin
    have hb := max_mul_nonneg (-u.outputTokens) hout
    have hc := max_mul_nonneg (-u.cacheReadTokens) hread
    have hd := max_mul_nonneg (-u.cacheWrite5m) h5m
    have he := max_mul_nonneg (-u.cacheWrite1h) h5m
    have hf := max_mul_nonneg u.cacheWrite1h h1h
    have ha' := max_eq_zero_of_mul hin (by linarith : ((max 0 (-u.inputTokens) : Int) : Rat) * _ = 0)
    have hb' := max_eq_zero_of_mul hout (by linarith : ((max 0 (-u.outputTokens) : Int) : Rat) * _ = 0)
    have hc' := max_eq_zero_of_mul hread (by linarith : ((max 0 (-u.cacheReadTokens) : Int) : Rat) * _ = 0)
    have hd' := max_eq_zero_of_mul h5m (by linarith : ((max 0 (-u.cacheWrite5m) : Int) : Rat) * _ = 0)
    have he' := max_eq_zero_of_mul h5m (by linarith : ((max 0 (-u.cacheWrite1h) : Int) : Rat) * _ = 0)
    have hf' := max_eq_zero_of_mul h1h (by linarith : ((max 0 u.cacheWrite1h : Int) : Rat) * _ = 0)
    constructor <;> omega
  · rintro ⟨ha, hb, hc, hd, he⟩
    have hmax : ∀ n : Int, 0 ≤ n → max 0 (-n) = 0 := by
      intro n hn
      omega
    simp [hmax _ ha, hmax _ hb, hmax _ hc, hmax _ hd, he]

theorem Absorbed.excess_le {price excess : Rat} (h : Absorbed price excess) : excess ≤ 1 := by
  obtain ⟨n, hprice, hcost⟩ := h
  rcases hprice with ⟨hprice, -⟩ | ⟨-, hprice, -⟩ <;> rcases hcost with ⟨-, hcost⟩ | ⟨-, -, hcost⟩ <;> linarith

end Costs

end Occp.Costs
