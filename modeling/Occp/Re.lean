import Occp.Lib.Regex
import Occp.Text

/-!
# Patterns (`re`)

The pieces that the source's patterns are written with. A pattern keeps its text, which the
code reports when it matches.
-/

namespace Occp

open Lib (Regex)

/-- What `re` and `str` read off the tables of Unicode. -/
structure Unicode where
  /-- The class `\w`. -/
  isWord : Char → Bool
  /-- The class `\d`, with the value of the digit. -/
  digit? : Char → Option Nat
  isWord_of_digit : ∀ c, (digit? c).isSome = true → isWord c = true
  isWord_of_isSpace : ∀ c, Text.isSpace c = true → isWord c = false
  isWord_hyphen : isWord '-' = false
  isWord_quote : isWord '"' = false

/-- The tables, where they are about ASCII. -/
def Unicode.ascii : Unicode where
  isWord c := c.isAlphanum || c == '_'
  digit? c := if c.isDigit then some (c.toNat - 48) else none
  isWord_of_digit c h := by
    have hdigit : c.isDigit = true := by
      by_contra hno
      simp [hno] at h
    simp [Char.isAlphanum, hdigit]
  isWord_of_isSpace c h := by
    rw [Bool.eq_false_iff]
    intro hword
    simp only [Text.isSpace, Bool.or_eq_true, Bool.and_eq_true, decide_eq_true_eq] at h
    delta Char.isAlphanum Char.isAlpha Char.isUpper Char.isLower Char.isDigit at hword
    simp only [Bool.or_eq_true, Bool.and_eq_true, decide_eq_true_eq, beq_iff_eq, UInt32.le_iff_toNat_le,
      ge_iff_le] at hword
    have hval : c.val.toNat = c.toNat := rfl
    rcases hword with ((⟨h₁, h₂⟩ | ⟨h₁, h₂⟩) | ⟨h₁, h₂⟩) | rfl
    · simp at h₁ h₂
      omega
    · simp at h₁ h₂
      omega
    · simp at h₁ h₂
      omega
    · revert h
      decide
  isWord_hyphen := by decide
  isWord_quote := by decide

namespace Re

structure Pattern where
  source : String
  regex : Regex Char

/-! ## Pieces of patterns -/

def text (s : String) : Regex Char := .sequence (s.toList.map fun c => .chars (· == c))

/-- A class of single characters, `[...]`. -/
def among (s : String) (c : Char) : Bool := s.toList.contains c

def dot (c : Char) : Bool := c ≠ '\n'

def isDigit (u : Unicode) (c : Char) : Bool := (u.digit? c).isSome

def digits (u : Unicode) (n : Nat) : Regex Char := .rep (isDigit u) n (some n)

def spaces : Regex Char := .rep Text.isSpace 1 none

def anySpaces : Regex Char := .rep Text.isSpace 0 none

def words (s : String) (ss : List String) : Regex Char := .anyOf (text s) (ss.map text)

/-! ## `re.I` -/

/-- The ASCII letters that `re.I` does not tell from the character. -/
def caseTwins (c : Char) : List Char :=
  if 'a' ≤ c ∧ c ≤ 'z' then [Char.ofNat (c.toNat - 32)]
  else if 'A' ≤ c ∧ c ≤ 'Z' then [Char.ofNat (c.toNat + 32)]
  else if c.toNat = 0x17F then ['s', 'S']
  else if c.toNat = 0x212A then ['k', 'K']
  else if c.toNat = 0x130 ∨ c.toNat = 0x131 then ['i', 'I']
  else []

def ignoreCase (r : Regex Char) : Regex Char := r.mapChars fun p c => p c || (caseTwins c).any p

/-! ## Searching -/

/-- `pattern.search(text)`, as the text that `found.group()` is. -/
def search (u : Unicode) (r : Regex Char) (text : List Char) : Option (List Char) := r.search u.isWord text

abbrev Occurs (u : Unicode) (r : Regex Char) (before w after : List Char) : Prop :=
  Regex.Occurs u.isWord r before w after

/-- Some substring of the string matches. -/
def HasMatch (u : Unicode) (r : Regex Char) (s : String) : Prop :=
  ∃ before w after, s.toList = before ++ w ++ after ∧ Occurs u r before w after

/-- A match in a string is found in every text that frames it. -/
theorem search_isSome {u : Unicode} {r : Regex Char} {s : String} {text : List Char} (h : HasMatch u r s)
    (hframed : Regex.Framed u.isWord s.toList text) : (search u r text).isSome = true := by
  obtain ⟨before, w, after, hs, h⟩ := h
  rw [hs] at hframed
  exact Regex.search_isSome_of_occurs h hframed

example : search .ascii (ignoreCase (.sequence [text "act", spaces, .opt (text "as"), .boundary])) "an Act  as it".toList =
    some "Act  as".toList := by
  decide +kernel

end Re

end Occp
