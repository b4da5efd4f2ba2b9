import Mathlib.Data.List.TakeWhile
import Mathlib.Tactic.Common

/-!
# Numerals

A decimal numeral is an optional sign, an integer without leading zeros, a fraction and an exponent. A reader takes as
much of the text as it can.
-/

namespace Occp.Lib.Numerals

/-- What is read, and the text after it. -/
abbrev Piece := List Char × List Char

def digits (cs : List Char) : Piece := (cs.takeWhile Char.isDigit, cs.dropWhile Char.isDigit)

def sign : List Char → Piece
  | '-' :: cs => (['-'], cs)
  | cs => ([], cs)

def anySign : List Char → Piece
  | '-' :: cs => (['-'], cs)
  | '+' :: cs => (['+'], cs)
  | cs => ([], cs)

/-- A zero stands alone. -/
def integer : List Char → Option Piece
  | [] => none
  | c :: cs =>
    if c = '0' then some (['0'], cs)
    else if c.isDigit then some (c :: (digits cs).1, (digits cs).2)
    else none

def fraction : List Char → Piece
  | '.' :: cs => if (digits cs).1 = [] then ([], '.' :: cs) else ('.' :: (digits cs).1, (digits cs).2)
  | cs => ([], cs)

def isExponent (c : Char) : Bool := c == 'e' || c == 'E'

def exponent : List Char → Piece
  | [] => ([], [])
  | c :: cs =>
    if isExponent c = true ∧ (digits (anySign cs).2).1 ≠ [] then
      (c :: (anySign cs).1 ++ (digits (anySign cs).2).1, (digits (anySign cs).2).2)
    else ([], c :: cs)

structure Token where
  chars : List Char
  /-- With a fraction or an exponent. -/
  isFloat : Bool
  deriving DecidableEq

def read (cs : List Char) : Option (Token × List Char) :=
  (integer (sign cs).2).map fun p =>
    let f := fraction p.2
    let e := exponent f.2
    (⟨(sign cs).1 ++ p.1 ++ f.1 ++ e.1, !f.1.isEmpty || !e.1.isEmpty⟩, e.2)

/-! ## Where a numeral ends -/

/-- A numeral does not go on with this text. -/
def Stops (cs : List Char) : Prop := ∀ c ∈ cs.head?, c.isDigit = false ∧ c ≠ '.' ∧ isExponent c = false

theorem stops_nil : Stops [] := by simp [Stops]

theorem stops_cons {c : Char} (h : c.isDigit = false ∧ c ≠ '.' ∧ isExponent c = false) (cs : List Char) :
    Stops (c :: cs) := by
  intro d hd
  cases hd
  exact h

def NoDigit (cs : List Char) : Prop := ∀ c ∈ cs.head?, c.isDigit = false

theorem Stops.noDigit {cs : List Char} (h : Stops cs) : NoDigit cs := fun c hc => (h c hc).1

theorem digits_split (cs : List Char) : cs = (digits cs).1 ++ (digits cs).2 := List.takeWhile_append_dropWhile.symm

theorem digits_append {ds more : List Char} (hds : ∀ c ∈ ds, c.isDigit = true) (hmore : NoDigit more) :
    digits (ds ++ more) = (ds, more) := by
  have htake : more.takeWhile Char.isDigit = [] := by
    cases more with
    | nil => rfl
    | cons c more => exact List.takeWhile_cons_of_neg (by simp [hmore c rfl])
  have hdrop : more.dropWhile Char.isDigit = more := by
    cases more with
    | nil => rfl
    | cons c more => exact List.dropWhile_cons_of_neg (by simp [hmore c rfl])
  rw [digits, List.takeWhile_append_of_pos hds, List.dropWhile_append_of_pos hds, htake, hdrop, List.append_nil]

theorem isDigit_of_mem_digits {cs : List Char} {c : Char} (h : c ∈ (digits cs).1) : c.isDigit = true :=
  List.mem_takeWhile_imp h

/-! ## What is read is read again -/

theorem sign_split (cs : List Char) :
    cs = (sign cs).1 ++ (sign cs).2 ∧
      ((sign cs).1 = ['-'] ∨ ((sign cs).1 = [] ∧ cs.head? ≠ some '-')) := by
  unfold sign
  split
  · exact ⟨rfl, .inl rfl⟩
  · next h =>
    refine ⟨rfl, .inr ⟨rfl, ?_⟩⟩
    cases cs with
    | nil => simp
    | cons c cs =>
      rintro heq
      exact h cs (by rw [Option.some.inj heq])

theorem sign_minus (cs : List Char) : sign ('-' :: cs) = (['-'], cs) := rfl

theorem sign_of_head {cs : List Char} (h : cs.head? ≠ some '-') : sign cs = ([], cs) := by
  unfold sign
  split
  · exact absurd rfl h
  · rfl

theorem anySign_split (cs : List Char) :
    cs = (anySign cs).1 ++ (anySign cs).2 ∧ ((anySign cs).1 = [] ∨ (anySign cs).1 = ['-'] ∨ (anySign cs).1 = ['+']) := by
  unfold anySign
  split
  · exact ⟨rfl, .inr (.inl rfl)⟩
  · exact ⟨rfl, .inr (.inr rfl)⟩
  · exact ⟨rfl, .inl rfl⟩

theorem anySign_append {s ds : List Char} (hs : s = [] ∨ s = ['-'] ∨ s = ['+']) (hne : ds ≠ [])
    (hds : ∀ c ∈ ds, c.isDigit = true) (more : List Char) : anySign (s ++ (ds ++ more)) = (s, ds ++ more) := by
  rcases hs with rfl | rfl | rfl
  · obtain ⟨d, ds, rfl⟩ := List.exists_cons_of_ne_nil hne
    have hd := hds d List.mem_cons_self
    unfold anySign
    split
    · next heq =>
      cases (List.cons.inj heq).1
      exact absurd hd (by decide)
    · next heq =>
      cases (List.cons.inj heq).1
      exact absurd hd (by decide)
    · rfl
  · rfl
  · rfl

theorem integer_split {cs : List Char} {p : Piece} (h : integer cs = some p) :
    cs = p.1 ++ p.2 ∧ (∃ d ds, p.1 = d :: ds ∧ d.isDigit = true ∧ ∀ c ∈ ds, c.isDigit = true) ∧
      ∀ more, NoDigit more → integer (p.1 ++ more) = some (p.1, more) := by
  cases cs with
  | nil => cases h
  | cons c cs =>
    rw [integer] at h
    split at h
    · next hzero =>
      cases h
      exact ⟨by rw [hzero]; rfl, ⟨'0', [], rfl, by decide, by simp⟩, fun more _ => rfl⟩
    · next hzero =>
      split at h
      · next hdigit =>
        cases h
        have hall : ∀ d ∈ (digits cs).1, d.isDigit = true := fun d hd => isDigit_of_mem_digits hd
        refine ⟨congrArg (c :: ·) (digits_split cs), ⟨c, (digits cs).1, rfl, hdigit, hall⟩, fun more hmore => ?_⟩
        dsimp only
        rw [List.cons_append, integer, if_neg hzero, if_pos hdigit, digits_append hall hmore]
      · cases h

theorem fraction_split (cs : List Char) :
    cs = (fraction cs).1 ++ (fraction cs).2 ∧
      ((fraction cs).1 = [] ∨ ∃ ds, (fraction cs).1 = '.' :: ds ∧ ds ≠ [] ∧ ∀ c ∈ ds, c.isDigit = true) := by
  unfold fraction
  split
  · split
    · exact ⟨rfl, .inl rfl⟩
    · next hne =>
      refine ⟨congrArg ('.' :: ·) (digits_split _), .inr ⟨_, rfl, hne, fun d hd => isDigit_of_mem_digits hd⟩⟩
  · exact ⟨rfl, .inl rfl⟩

theorem fraction_append {f more : List Char}
    (hf : f = [] ∨ ∃ ds, f = '.' :: ds ∧ ds ≠ [] ∧ ∀ c ∈ ds, c.isDigit = true) (hmore : NoDigit more)
    (hdot : more.head? ≠ some '.') : fraction (f ++ more) = (f, more) := by
  rcases hf with rfl | ⟨ds, rfl, hne, hds⟩
  · rw [List.nil_append]
    unfold fraction
    split
    · exact absurd rfl hdot
    · rfl
  · rw [List.cons_append, fraction, digits_append hds hmore, if_neg hne]

/-- An exponent as it is written. -/
def ExponentText (e : List Char) : Prop :=
  ∃ c s ds, e = c :: (s ++ ds) ∧ isExponent c = true ∧ ds ≠ [] ∧ (∀ d ∈ ds, d.isDigit = true) ∧
    (s = [] ∨ s = ['-'] ∨ s = ['+'])

theorem exponent_split (cs : List Char) :
    cs = (exponent cs).1 ++ (exponent cs).2 ∧ ((exponent cs).1 = [] ∨ ExponentText (exponent cs).1) := by
  cases cs with
  | nil => exact ⟨rfl, .inl rfl⟩
  | cons c cs =>
    rw [exponent]
    split
    · next h =>
      obtain ⟨hc, hne⟩ := h
      obtain ⟨hsplit, hsigns⟩ := anySign_split cs
      have hall : ∀ d ∈ (digits (anySign cs).2).1, d.isDigit = true := fun d hd => isDigit_of_mem_digits hd
      refine ⟨?_, .inr ⟨c, _, _, rfl, hc, hne, hall, hsigns⟩⟩
      dsimp only
      rw [List.cons_append, List.cons_append, List.append_assoc, ← digits_split, ← hsplit]
    · exact ⟨rfl, .inl rfl⟩

theorem exponent_append {e more : List Char} (he : e = [] ∨ ExponentText e) (hmore : NoDigit more)
    (hstop : ∀ c ∈ more.head?, isExponent c = false) : exponent (e ++ more) = (e, more) := by
  rcases he with rfl | ⟨c, s, ds, rfl, hc, hne, hds, hs⟩
  · cases more with
    | nil => rfl
    | cons c more => rw [List.nil_append, exponent, if_neg (by simp [hstop c rfl])]
  · rw [List.cons_append, List.append_assoc, exponent, anySign_append hs hne hds,
      digits_append hds hmore, if_pos ⟨hc, hne⟩]
    rfl

theorem ExponentText.head {e : List Char} (h : ExponentText e) (more : List Char) :
    ∃ c, (e ++ more).head? = some c ∧ isExponent c = true := by
  obtain ⟨c, s, ds, rfl, hc, -⟩ := h
  exact ⟨c, rfl, hc⟩

theorem not_digit_of_isExponent {c : Char} (h : isExponent c = true) : c.isDigit = false ∧ c ≠ '.' := by
  simp only [isExponent, Bool.or_eq_true, beq_iff_eq] at h
  rcases h with rfl | rfl <;> decide

theorem ExponentText.follows {e more : List Char} (he : e = [] ∨ ExponentText e) (hmore : Stops more) :
    NoDigit (e ++ more) ∧ (e ++ more).head? ≠ some '.' := by
  rcases he with rfl | he
  · refine ⟨hmore.noDigit, fun hdot => ?_⟩
    exact (hmore '.' hdot).2.1 rfl
  · obtain ⟨c, hhead, hc⟩ := he.head more
    obtain ⟨hdigit, hdot⟩ := not_digit_of_isExponent hc
    refine ⟨fun d hd => ?_, fun hdot' => ?_⟩
    · rw [hhead] at hd
      cases hd
      exact hdigit
    · rw [hhead] at hdot'
      exact hdot (Option.some.inj hdot')

def isNumeralChar (c : Char) : Bool := c.isDigit || c == '-' || c == '+' || c == '.' || isExponent c

theorem isNumeralChar_of_isDigit {c : Char} (h : c.isDigit = true) : isNumeralChar c = true := by simp [isNumeralChar, h]

theorem isNumeralChar_exponent {e : List Char} (he : e = [] ∨ ExponentText e) : ∀ c ∈ e, isNumeralChar c = true := by
  rcases he with rfl | ⟨c, s, ds, rfl, hc, -, hds, hs⟩
  · nofun
  · intro d hd
    rcases List.mem_cons.mp hd with rfl | hd
    · simp [isNumeralChar, hc]
    · rcases List.mem_append.mp hd with hd | hd
      · rcases hs with rfl | rfl | rfl
        · cases hd
        · rw [List.mem_singleton.mp hd]
          decide
        · rw [List.mem_singleton.mp hd]
          decide
      · exact isNumeralChar_of_isDigit (hds d hd)

/-- The token is a part of the text, and is read from it again in front of any text that stops it. -/
theorem read_spec {cs rest : List Char} {t : Token} (h : read cs = some (t, rest)) :
    cs = t.chars ++ rest ∧ (∀ c ∈ t.chars, isNumeralChar c = true) ∧
      (∃ c more, t.chars = c :: more ∧ (c.isDigit = true ∨ c = '-')) ∧
      ∀ more, Stops more → read (t.chars ++ more) = some (t, more) := by
  obtain ⟨p, hp, heq⟩ := Option.map_eq_some_iff.mp h
  obtain ⟨hsign, hminus⟩ := sign_split cs
  obtain ⟨hinteger, ⟨d, ds, hd, hdigit, hds⟩, hagain⟩ := integer_split hp
  obtain ⟨hfraction, hf⟩ := fraction_split p.2
  obtain ⟨hexponent, he⟩ := exponent_split (fraction p.2).2
  cases heq
  dsimp only
  refine ⟨?_, ?_, ?_, ?_⟩
  · conv_lhs => rw [hsign, hinteger, hfraction, hexponent]
    simp only [List.append_assoc]
  · intro c hc
    simp only [List.mem_append] at hc
    rcases hc with ((hc | hc) | hc) | hc
    · rcases hminus with hminus | ⟨hminus, -⟩
      · rw [hminus, List.mem_singleton] at hc
        rw [hc]
        decide
      · rw [hminus] at hc
        cases hc
    · rw [hd] at hc
      rcases List.mem_cons.mp hc with rfl | hc
      · exact isNumeralChar_of_isDigit hdigit
      · exact isNumeralChar_of_isDigit (hds c hc)
    · rcases hf with hf | ⟨fs, hf, -, hfs⟩
      · rw [hf] at hc
        cases hc
      · rw [hf] at hc
        rcases List.mem_cons.mp hc with rfl | hc
        · decide
        · exact isNumeralChar_of_isDigit (hfs c hc)
    · exact isNumeralChar_exponent he c hc
  · rcases hminus with hminus | ⟨hminus, -⟩
    · rw [hminus]
      exact ⟨'-', _, rfl, .inr rfl⟩
    · rw [hminus, hd]
      exact ⟨d, _, rfl, .inl hdigit⟩
  · intro more hmore
    obtain ⟨hnoDigit, hnoDot⟩ := ExponentText.follows he hmore
    have hafter : NoDigit ((fraction p.2).1 ++ ((exponent (fraction p.2).2).1 ++ more)) := by
      rcases hf with hf | ⟨fs, hf, -⟩
      · rw [hf]
        exact hnoDigit
      · rw [hf]
        intro c hc
        cases hc
        decide
    have hsigned : sign ((sign cs).1 ++ (p.1 ++ ((fraction p.2).1 ++ ((exponent (fraction p.2).2).1 ++ more)))) =
        ((sign cs).1, p.1 ++ ((fraction p.2).1 ++ ((exponent (fraction p.2).2).1 ++ more))) := by
      rcases hminus with hminus | ⟨hminus, -⟩
      · rw [hminus]
        rfl
      · rw [hminus, List.nil_append]
        refine sign_of_head ?_
        rw [hd, List.cons_append, List.head?_cons]
        rintro heq
        cases heq
        exact absurd hdigit (by decide)
    have hstop : ∀ c ∈ more.head?, isExponent c = false := fun c hc => (hmore c hc).2.2
    unfold read
    simp only [List.append_assoc]
    rw [hsigned]
    dsimp only
    rw [hagain _ hafter, Option.map_some]
    dsimp only
    rw [fraction_append hf hnoDigit hnoDot, exponent_append he hmore.noDigit hstop]

/-- A text of digits is a token, unless it has a leading zero. -/
theorem read_digits {ds rest : List Char} (hne : ds ≠ []) (hds : ∀ c ∈ ds, c.isDigit = true)
    (hzero : ds.head? = some '0' → ds = ['0']) (minus : Bool) (hstops : Stops rest) :
    read ((if minus then ['-'] else []) ++ ds ++ rest) =
      some (⟨(if minus then ['-'] else []) ++ ds, false⟩, rest) := by
  obtain ⟨d, ds, rfl⟩ := List.exists_cons_of_ne_nil hne
  have hd := hds d List.mem_cons_self
  have hinteger : integer (d :: ds ++ rest) = some (d :: ds, rest) := by
    rw [List.cons_append, integer]
    split
    · next h =>
      subst h
      have hnil : ds = [] := (List.cons.inj (hzero rfl)).2
      rw [hnil]
      rfl
    · rw [digits_append (fun c hc => hds c (List.mem_cons_of_mem d hc)) hstops.noDigit]
  have hsign : sign ((if minus then ['-'] else []) ++ (d :: ds ++ rest)) = (if minus then ['-'] else [], d :: ds ++ rest) := by
    cases minus with
    | true => rfl
    | false =>
      refine sign_of_head ?_
      rintro heq
      cases heq
      exact absurd hd (by decide)
  have hfraction : fraction rest = ([], rest) :=
    fraction_append (.inl rfl) hstops.noDigit fun hdot => (hstops '.' hdot).2.1 rfl
  have hexponent : exponent rest = ([], rest) :=
    exponent_append (.inl rfl) hstops.noDigit fun c hc => (hstops c hc).2.2
  rw [List.append_assoc, read, hsign]
  dsimp only
  rw [hinteger, Option.map_some]
  dsimp only
  rw [hfraction, hexponent]
  simp

end Occp.Lib.Numerals
