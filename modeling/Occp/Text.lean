import Occp.Errors
import Occp.Lib.Rounding
import Mathlib.Data.Rat.Floor

/-!
# Text and numbers

What `str` methods, number formats and the conversions `int` and `float` make of strings.
Digits are ASCII here, and no number is infinite or NaN.
-/

namespace Occp

/-- A stored text, by what `json.loads` returns for it; `none` when it raises. -/
abbrev Payload := Option Value

namespace Text

/-- What an f-string inserts for a value; `text` says it for those that are no strings. -/
def inserted (text : Value → String) : Value → String
  | .str s => s
  | v => text v

/-- Where `str.strip` cuts. -/
def isSpace (c : Char) : Bool :=
  let n := c.toNat
  (9 ≤ n && n ≤ 13) || (28 ≤ n && n ≤ 32) || n = 0x85 || n = 0xA0 || n = 0x1680 || (0x2000 ≤ n && n ≤ 0x200A) ||
    n = 0x2028 || n = 0x2029 || n = 0x202F || n = 0x205F || n = 0x3000

def strip (cs : List Char) : List Char := ((cs.dropWhile isSpace).reverse.dropWhile isSpace).reverse

/-- `str.lower` where it yields an ASCII letter. Any other letter is left as it is. -/
def lowerChar (c : Char) : List Char :=
  if 'A' ≤ c ∧ c ≤ 'Z' then [Char.ofNat (c.toNat + 32)]
  else if c.toNat = 0x212A then ['k']
  else if c.toNat = 0x130 then ['i', Char.ofNat 0x307]
  else [c]

def lower (cs : List Char) : List Char := cs.flatMap lowerChar

/-- `str.split()`: the words between white space. -/
def split (cs : List Char) : List (List Char) := (cs.splitOnP isSpace).filter fun word => !word.isEmpty

/-- The number in a string that `str.isdigit` accepts. -/
def decimal? (cs : List Char) : Option Nat :=
  if !cs.isEmpty && cs.all Char.isDigit then some (cs.foldl (fun n c => n * 10 + (c.toNat - 48)) 0) else none

/-- `format(q, ".<digits>f")`. -/
def fixed (digits : Nat) (q : Rat) : String :=
  let scaled := (Lib.roundHalfEven (|q| * 10 ^ digits)).toNat
  let decimals := toString (scaled % 10 ^ digits)
  let zeros := String.ofList (List.replicate (digits - decimals.length) '0')
  let sign := if q < 0 then "-" else ""
  s!"{sign}{scaled / 10 ^ digits}.{zeros}{decimals}"

/-- `int(q)` of a number: towards zero. -/
def truncate (q : Rat) : Int := if q < 0 then ⌈q⌉ else ⌊q⌋

/-- Digits, with single underscores between them, as a number and their count. -/
def digits? : List Char → (value count : Nat) → (complete : Bool) → Option (Nat × Nat)
  | [], value, count, complete => if complete then some (value, count) else none
  | c :: cs, value, count, complete =>
    if c = '_' then if complete then digits? cs value count false else none
    else if c.isDigit then digits? cs (value * 10 + (c.toNat - 48)) (count + 1) true
    else none

/-- The sign, and what it stands before. -/
def sign : List Char → Int × List Char
  | '-' :: cs => (-1, cs)
  | '+' :: cs => (1, cs)
  | cs => (1, cs)

/-- `int(text)`. -/
def int? (text : String) : Option Int :=
  let (s, cs) := sign (strip text.toList)
  (digits? cs 0 0 false).map fun n => s * n.1

/-- The digits before the point and those after it; one side may be empty. -/
def mantissa? (cs : List Char) : Option Rat :=
  let whole := cs.takeWhile (· ≠ '.')
  match cs.drop whole.length with
  | [] => (digits? whole 0 0 false).map fun n => (n.1 : Rat)
  | _ :: part => do
    if whole = [] ∧ part = [] then none
    else
      let n ← if whole = [] then some (0, 0) else digits? whole 0 0 false
      let d ← if part = [] then some (0, 0) else digits? part 0 0 false
      some ((n.1 : Rat) + d.1 / 10 ^ d.2)

/-- `float(text)`. -/
def float? (text : String) : Option Rat := do
  let (s, cs) := sign (strip text.toList)
  let before := cs.takeWhile fun c => c ≠ 'e' ∧ c ≠ 'E'
  let m ← mantissa? before
  match cs.drop before.length with
  | [] => some (s * m)
  | _ :: exponent =>
    let (t, ds) := sign exponent
    let e ← digits? ds 0 0 false
    some (s * m * (10 : Rat) ^ (t * (e.1 : Int)))

example : float? " -1_0.25e-1\n" = some (-41 / 40) := by decide +kernel

end Text

end Occp
