import Mathlib.Data.List.Basic

/-!
# Base64

The encoder takes three bytes at a time. The decoder is a lenient one: it skips what is not in the
alphabet, and stops where the padding is complete.
-/

namespace Occp.Lib.Base64

/-! ## The alphabet -/

def digit (n : Nat) : Char :=
  if n < 26 then Char.ofNat (65 + n)
  else if n < 52 then Char.ofNat (71 + n)
  else if n < 62 then Char.ofNat (n - 4)
  else if n = 62 then '+'
  else '/'

def value? (c : Char) : Option Nat :=
  if 'A' ≤ c ∧ c ≤ 'Z' then some (c.toNat - 65)
  else if 'a' ≤ c ∧ c ≤ 'z' then some (c.toNat - 71)
  else if '0' ≤ c ∧ c ≤ '9' then some (c.toNat + 4)
  else if c = '+' then some 62
  else if c = '/' then some 63
  else none

theorem value?_digit {n : Nat} (h : n < 64) : value? (digit n) = some n := by
  have hall : ∀ i : Fin 64, value? (digit i) = some i.val := by decide
  exact hall ⟨n, h⟩

theorem digit_ne_pad {n : Nat} (h : n < 64) : digit n ≠ '=' := by
  have hall : ∀ i : Fin 64, digit i ≠ '=' := by decide
  exact hall ⟨n, h⟩

/-! ## The encoder -/

def encode : List UInt8 → List Char
  | [] => []
  | [a] => [digit (a.toNat / 4), digit (a.toNat % 4 * 16), '=', '=']
  | [a, b] => [digit (a.toNat / 4), digit (a.toNat % 4 * 16 + b.toNat / 16), digit (b.toNat % 16 * 4), '=']
  | a :: b :: c :: rest =>
    digit (a.toNat / 4) :: digit (a.toNat % 4 * 16 + b.toNat / 16) :: digit (b.toNat % 16 * 4 + c.toNat / 64) ::
      digit (c.toNat % 64) :: encode rest

/-! ## The decoder -/

/-- The decoder within a group: `place` digits of it have been read, `left` is what of them is not yet in a byte,
and `pads` is the padding that follows them. -/
def decodeFrom : (place left pads : Nat) → List Char → Option (List UInt8)
  | 0, _, _, [] => some []
  | _ + 1, _, _, [] => none
  | place, left, pads, c :: rest =>
    if c = '=' then
      if place < 2 then decodeFrom place left pads rest
      else if 4 ≤ place + (pads + 1) then some []
      else decodeFrom place left (pads + 1) rest
    else
      match value? c with
      | none => decodeFrom place left pads rest
      | some v =>
        match place with
        | 0 => decodeFrom 1 v 0 rest
        | 1 => (decodeFrom 2 (v % 16) 0 rest).map (UInt8.ofNat (left * 4 + v / 16) :: ·)
        | 2 => (decodeFrom 3 (v % 4) 0 rest).map (UInt8.ofNat (left * 16 + v / 4) :: ·)
        | _ => (decodeFrom 0 0 0 rest).map (UInt8.ofNat (left * 64 + v) :: ·)

/-- There is no result when the text ends within a group. -/
def decode (text : List Char) : Option (List UInt8) := decodeFrom 0 0 0 text

/-! ## One digit -/

section

variable {left pads v : Nat} (hv : v < 64) (rest : List Char)

include hv

theorem decodeFrom_first : decodeFrom 0 left pads (digit v :: rest) = decodeFrom 1 v 0 rest := by
  simp [decodeFrom, digit_ne_pad hv, value?_digit hv]

theorem decodeFrom_second : decodeFrom 1 left pads (digit v :: rest) =
    (decodeFrom 2 (v % 16) 0 rest).map (UInt8.ofNat (left * 4 + v / 16) :: ·) := by
  simp [decodeFrom, digit_ne_pad hv, value?_digit hv]

theorem decodeFrom_third : decodeFrom 2 left pads (digit v :: rest) =
    (decodeFrom 3 (v % 4) 0 rest).map (UInt8.ofNat (left * 16 + v / 4) :: ·) := by
  simp [decodeFrom, digit_ne_pad hv, value?_digit hv]

theorem decodeFrom_fourth : decodeFrom 3 left pads (digit v :: rest) =
    (decodeFrom 0 0 0 rest).map (UInt8.ofNat (left * 64 + v) :: ·) := by
  simp [decodeFrom, digit_ne_pad hv, value?_digit hv]

end

/-! ## Round trip -/

theorem ofNat_eq {a : UInt8} {n : Nat} (h : n = a.toNat) : UInt8.ofNat n = a := by
  rw [h, UInt8.ofNat_toNat]

theorem decode_encode (bytes : List UInt8) : decode (encode bytes) = some bytes := by
  unfold decode
  induction bytes using encode.induct with
  | case1 => rfl
  | case2 a =>
    have ha := a.toNat_lt
    have hfirst : UInt8.ofNat (a.toNat / 4 * 4 + a.toNat % 4 * 16 / 16) = a := ofNat_eq (by omega)
    rw [encode, decodeFrom_first (by omega), decodeFrom_second (by omega), hfirst]
    rfl
  | case3 a b =>
    have ha := a.toNat_lt
    have hb := b.toNat_lt
    have hfirst : UInt8.ofNat (a.toNat / 4 * 4 + (a.toNat % 4 * 16 + b.toNat / 16) / 16) = a := ofNat_eq (by omega)
    have hsecond : UInt8.ofNat ((a.toNat % 4 * 16 + b.toNat / 16) % 16 * 16 + b.toNat % 16 * 4 / 4) = b :=
      ofNat_eq (by omega)
    rw [encode, decodeFrom_first (by omega), decodeFrom_second (by omega), decodeFrom_third (by omega), hfirst, hsecond]
    rfl
  | case4 a b c rest ih =>
    have ha := a.toNat_lt
    have hb := b.toNat_lt
    have hc := c.toNat_lt
    have hfirst : UInt8.ofNat (a.toNat / 4 * 4 + (a.toNat % 4 * 16 + b.toNat / 16) / 16) = a := ofNat_eq (by omega)
    have hsecond : UInt8.ofNat ((a.toNat % 4 * 16 + b.toNat / 16) % 16 * 16 +
        (b.toNat % 16 * 4 + c.toNat / 64) / 4) = b := ofNat_eq (by omega)
    have hthird : UInt8.ofNat ((b.toNat % 16 * 4 + c.toNat / 64) % 4 * 64 + c.toNat % 64) = c := ofNat_eq (by omega)
    rw [encode, decodeFrom_first (by omega), decodeFrom_second (by omega), decodeFrom_third (by omega),
      decodeFrom_fourth (by omega), hfirst, hsecond, hthird, ih]
    rfl

/-- What is encoded is ASCII. -/
theorem digit_lt (n : Nat) : (digit n).toNat < 128 := by
  by_cases h : n < 64
  · have hall : ∀ i : Fin 64, (digit i).toNat < 128 := by decide
    exact hall ⟨n, h⟩
  · unfold digit
    rw [if_neg (by omega), if_neg (by omega), if_neg (by omega), if_neg (by omega)]
    decide

theorem encode_ascii (bytes : List UInt8) : ∀ c ∈ encode bytes, c.toNat < 128 := by
  induction bytes using encode.induct with
  | case1 => simp [encode]
  | case2 a => simp [encode, digit_lt]
  | case3 a b => simp [encode, digit_lt]
  | case4 a b c rest ih =>
    simp only [encode, List.mem_cons]
    rintro x (rfl | rfl | rfl | rfl | hx)
    · exact digit_lt _
    · exact digit_lt _
    · exact digit_lt _
    · exact digit_lt _
    · exact ih x hx

end Occp.Lib.Base64
