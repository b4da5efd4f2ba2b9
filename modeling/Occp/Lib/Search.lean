import Mathlib.Data.Int.LeastGreatest

/-!
# Searches that skip

A search looks for a hit from a start up to a limit. After a miss it goes on further ahead, but
not past a hit.
-/

namespace Occp.Lib

/-- The first hit from the start on, which is up to the limit. -/
structure IsFirst (hit : Int → Prop) (start limit n : Int) : Prop where
  start_le : start ≤ n
  le_limit : n ≤ limit
  is_hit : hit n
  first : ∀ k, start ≤ k → k < n → ¬ hit k

section

variable {hit : Int → Prop} {start limit n : Int}

theorem isFirst_iff : IsFirst hit start limit n ↔
    (start ≤ n ∧ n ≤ limit ∧ hit n) ∧ ∀ k, start ≤ k → k ≤ limit → hit k → n ≤ k := by
  constructor
  · intro h
    refine ⟨⟨h.start_le, h.le_limit, h.is_hit⟩, fun k hstart _ hk => ?_⟩
    by_contra hlt
    exact h.first k hstart (by omega) hk
  · rintro ⟨⟨hstart, hlimit, hhit⟩, hleast⟩
    refine ⟨hstart, hlimit, hhit, fun k hk hlt hmiss => ?_⟩
    have := hleast k hk (by omega) hmiss
    omega

theorem exists_isFirst_iff : (∃ n, IsFirst hit start limit n) ↔ ∃ n, start ≤ n ∧ n ≤ limit ∧ hit n := by
  constructor
  · rintro ⟨n, h⟩
    exact ⟨n, h.start_le, h.le_limit, h.is_hit⟩
  · intro h
    have hbound : ∃ b : Int, ∀ z, (start ≤ z ∧ z ≤ limit ∧ hit z) → b ≤ z := ⟨start, fun z hz => hz.1⟩
    obtain ⟨n, hn, hleast⟩ := Int.exists_least_of_bdd hbound h
    exact ⟨n, isFirst_iff.mpr ⟨hn, fun k hstart hlimit hk => hleast k ⟨hstart, hlimit, hk⟩⟩⟩

theorem isFirst_skip {next : Int} (hnext : start ≤ next) (hmiss : ∀ k, start ≤ k → k < next → ¬ hit k) :
    IsFirst hit start limit n ↔ IsFirst hit next limit n := by
  constructor
  · intro h
    refine ⟨?_, h.le_limit, h.is_hit, fun k hk => h.first k (by omega)⟩
    by_contra hlt
    exact hmiss n h.start_le (by omega) h.is_hit
  · intro h
    have hstart := h.start_le
    refine ⟨by omega, h.le_limit, h.is_hit, fun k hk hlt => ?_⟩
    by_cases hskipped : k < next
    · exact hmiss k hk hskipped
    · exact h.first k (by omega) hlt

end

/-- The search; `next` says where it goes on after a miss. -/
def search (hit : Int → Bool) (next : Int → Int) (limit : Int) : (fuel : Nat) → (start : Int) → Option Int
  | 0, _ => none
  | fuel + 1, start =>
    if start ≤ limit then
      if hit start then some start else search hit next limit fuel (next start)
    else none

/-- After a miss, the search goes on, and skips misses only. -/
structure Skips (hit : Int → Bool) (next : Int → Int) : Prop where
  lt_next : ∀ c, hit c = false → c < next c
  miss : ∀ c k, hit c = false → c < k → k < next c → hit k = false

theorem search_eq_some_iff {hit : Int → Bool} {next : Int → Int} (h : Skips hit next) {limit : Int} {fuel : Nat}
    {start n : Int} (hfuel : limit < start + fuel) :
    search hit next limit fuel start = some n ↔ IsFirst (fun k => hit k = true) start limit n := by
  induction fuel generalizing start with
  | zero =>
    rw [search]
    refine iff_of_false nofun fun hfirst => ?_
    have hstart := hfirst.start_le
    have hlimit := hfirst.le_limit
    omega
  | succ fuel ih =>
    rw [search]
    split
    · next hle =>
      split
      · next hhit =>
        constructor
        · intro heq
          cases heq
          exact ⟨le_rfl, hle, hhit, fun k hk hlt => absurd hlt (by omega)⟩
        · intro hfirst
          have hstart := hfirst.start_le
          by_contra hne
          exact hfirst.first start le_rfl (by rw [Option.some.injEq] at hne; omega) hhit
      · next hmiss =>
        rw [Bool.not_eq_true] at hmiss
        have hlt := h.lt_next start hmiss
        rw [ih (by omega), isFirst_skip hlt.le]
        intro k hk hskipped
        rw [Bool.not_eq_true]
        by_cases heq : k = start
        · rw [heq]
          exact hmiss
        · exact h.miss start k hmiss (by omega) hskipped
    · next hgt =>
      refine iff_of_false nofun fun hfirst => ?_
      have hstart := hfirst.start_le
      have hlimit := hfirst.le_limit
      omega

end Occp.Lib
