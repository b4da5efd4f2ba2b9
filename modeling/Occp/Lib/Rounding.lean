import Mathlib.Algebra.Order.Round
import Mathlib.Tactic.Linarith
import Mathlib.Tactic.Ring

/-!
# Rounding half to even

Ties go to the even neighbour, which is what decimal rounding does in most languages.
-/

namespace Occp.Lib

variable {α : Type} [Field α]

/-- A number with so many decimal places. -/
def IsDecimal (digits : Nat) (x : α) : Prop := ∃ n : Int, x = n / 10 ^ digits

theorem isDecimal_zero (digits : Nat) : IsDecimal digits (0 : α) := ⟨0, by simp⟩

theorem isDecimal_add {digits : Nat} {x y : α} (hx : IsDecimal digits x) (hy : IsDecimal digits y) :
    IsDecimal digits (x + y) := by
  obtain ⟨m, rfl⟩ := hx
  obtain ⟨n, rfl⟩ := hy
  exact ⟨m + n, by rw [Int.cast_add, add_div]⟩

variable [LinearOrder α] [FloorRing α]

def roundHalfEven (x : α) : Int := if 2 * Int.fract x = 1 ∧ Even ⌊x⌋ then ⌊x⌋ else round x

/-- `x` to so many decimal places. -/
def roundTo (digits : Nat) (x : α) : α := roundHalfEven (x * 10 ^ digits) / 10 ^ digits

theorem isDecimal_roundTo (digits : Nat) (x : α) : IsDecimal digits (roundTo digits x) := ⟨_, rfl⟩

/-- Half way between two numbers with so many decimal places. -/
def IsTie (digits : Nat) (x : α) : Prop := 2 * Int.fract (x * 10 ^ digits) = 1

/-! ## To a whole number -/

variable [IsStrictOrderedRing α]

theorem abs_sub_roundHalfEven_le (x : α) : |x - roundHalfEven x| ≤ 1 / 2 := by
  unfold roundHalfEven
  split
  · next h =>
    have hfract : x - ⌊x⌋ = Int.fract x := rfl
    rw [hfract, abs_of_nonneg (Int.fract_nonneg x)]
    linarith [h.1]
  · exact abs_sub_round x

/-- The numbers that are rounded to `n`: those nearer to it than to any other, and its ties if it is even. -/
def Nearest (n : Int) (x : α) : Prop :=
  ((n : α) - 1 / 2 < x ∧ x < n + 1 / 2) ∨ (Even n ∧ (n : α) - 1 / 2 ≤ x ∧ x ≤ n + 1 / 2)

theorem nearest_roundHalfEven (x : α) : Nearest (roundHalfEven x) x := by
  by_cases htie : 2 * Int.fract x = 1 ∧ Even ⌊x⌋
  · rw [roundHalfEven, if_pos htie]
    have hfloor := Int.floor_add_fract x
    exact .inr ⟨htie.2, by linarith [htie.1], by linarith [htie.1]⟩
  · rw [roundHalfEven, if_neg htie]
    obtain ⟨hlow, hhigh⟩ := round_eq_iff.mp (rfl : round x = round x)
    rcases hlow.lt_or_eq with hlow | heq
    · exact .inl ⟨hlow, hhigh⟩
    · -- Half above an odd number: the even one is the next.
      have hfloor : ⌊x⌋ = round x - 1 := by
        rw [Int.floor_eq_iff]
        push_cast
        constructor <;> linarith
      have hfract : 2 * Int.fract x = 1 := by
        rw [Int.fract, hfloor]
        push_cast
        linarith
      have hodd : ¬ Even ⌊x⌋ := fun heven => htie ⟨hfract, heven⟩
      rw [hfloor, Int.even_sub_one, not_not] at hodd
      exact .inr ⟨hodd, hlow, hhigh.le⟩

theorem Nearest.unique {x : α} {m n : Int} (hm : Nearest m x) (hn : Nearest n x) : m = n := by
  have hlt : ∀ {a b : Int}, Nearest a x → Nearest b x → ¬ a < b := by
    intro a b ha hb hab
    have hcast : (a : α) + 1 ≤ b := by exact_mod_cast hab
    rcases ha with ⟨-, ha⟩ | ⟨heven, -, ha⟩
    · rcases hb with ⟨hb, -⟩ | ⟨-, hb, -⟩ <;> linarith
    · rcases hb with ⟨hb, -⟩ | ⟨heven', hb, -⟩
      · linarith
      · have hnext : (b : α) = a + 1 := by linarith
        have hnext' : b = a + 1 := by exact_mod_cast hnext
        rw [hnext', Int.even_add_one] at heven'
        exact heven' heven
  exact le_antisymm (not_lt.mp (hlt hn hm)) (not_lt.mp (hlt hm hn))

theorem roundHalfEven_eq_iff (x : α) (n : Int) : roundHalfEven x = n ↔ Nearest n x :=
  ⟨fun h => h ▸ nearest_roundHalfEven x, fun h => (nearest_roundHalfEven x).unique h⟩

@[simp] theorem roundHalfEven_intCast (n : Int) : roundHalfEven (n : α) = n := by
  unfold roundHalfEven
  rw [if_neg, round_intCast]
  rintro ⟨h, -⟩
  rw [Int.fract_intCast, mul_zero] at h
  exact zero_ne_one h

theorem roundHalfEven_mono {x y : α} (h : x ≤ y) : roundHalfEven x ≤ roundHalfEven y := by
  by_contra hlt
  have hstep : roundHalfEven y + 1 ≤ roundHalfEven x := by omega
  have hcast : (roundHalfEven y : α) + 1 ≤ roundHalfEven x := by exact_mod_cast hstep
  have hx := abs_le.mp (abs_sub_roundHalfEven_le x)
  have hy := abs_le.mp (abs_sub_roundHalfEven_le y)
  have heq : x = y := by linarith
  rw [heq] at hlt
  exact hlt le_rfl

/-- Away from a tie, whole numbers pass through the rounding. -/
theorem roundHalfEven_intCast_add {x : α} (h : 2 * Int.fract x ≠ 1) (n : Int) :
    roundHalfEven (n + x) = n + roundHalfEven x := by
  unfold roundHalfEven
  have hfract : 2 * Int.fract (n + x) ≠ 1 := by rwa [Int.fract_intCast_add]
  rw [if_neg fun htie => hfract htie.1, if_neg fun htie => h htie.1, round_intCast_add]

/-! ## To so many decimal places -/

variable {digits : Nat} {x y : α}

omit [FloorRing α] in
theorem pow_ten_pos (digits : Nat) : (0 : α) < 10 ^ digits := by positivity

theorem roundTo_of_isDecimal (h : IsDecimal digits x) : roundTo digits x = x := by
  obtain ⟨n, rfl⟩ := h
  unfold roundTo
  rw [div_mul_cancel₀ _ (pow_ten_pos digits).ne', roundHalfEven_intCast]

theorem roundTo_mono (h : x ≤ y) : roundTo digits x ≤ roundTo digits y := by
  unfold roundTo
  have hpos := pow_ten_pos (α := α) digits
  refine div_le_div_of_nonneg_right ?_ hpos.le
  exact_mod_cast roundHalfEven_mono (mul_le_mul_of_nonneg_right h hpos.le)

theorem roundTo_le_of_le (hy : IsDecimal digits y) (h : x ≤ y) : roundTo digits x ≤ y := by
  have hmono : roundTo digits x ≤ roundTo digits y := roundTo_mono h
  rwa [roundTo_of_isDecimal hy] at hmono

theorem roundTo_add_of_isDecimal (hx : IsDecimal digits x) (hy : ¬ IsTie digits y) :
    roundTo digits (x + y) = x + roundTo digits y := by
  obtain ⟨n, rfl⟩ := hx
  have hpos := pow_ten_pos (α := α) digits
  unfold roundTo
  rw [add_mul, div_mul_cancel₀ _ hpos.ne', roundHalfEven_intCast_add hy, Int.cast_add, add_div]

theorem abs_roundTo_sub_le (digits : Nat) (x : α) : |roundTo digits x - x| ≤ 1 / 2 / 10 ^ digits := by
  have hpos := pow_ten_pos (α := α) digits
  have hround := abs_sub_roundHalfEven_le (x * 10 ^ digits)
  have hsplit : roundTo digits x - x = -(x * 10 ^ digits - roundHalfEven (x * 10 ^ digits)) / 10 ^ digits := by
    unfold roundTo
    field_simp
    ring
  rw [hsplit, abs_div, abs_neg, abs_of_pos hpos]
  exact div_le_div_of_nonneg_right hround hpos.le

end Occp.Lib
