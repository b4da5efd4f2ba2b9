import Occp.Json
import Occp.Lib.Fields
import Mathlib.Data.List.TakeWhile

/-!
# Reading JSON text

Objects without white space between the tokens, whose values are strings, numerals and objects of
strings. A string is a sequence of UTF-16 code units; a numeral is kept as it is written.
-/

namespace Occp.Json

/-! ## Strings -/

/-- The code units of a character. -/
def units (c : Char) : List Nat :=
  if c.toNat < 0x10000 then [c.toNat]
  else [0xD800 + (c.toNat - 0x10000) / 0x400, 0xDC00 + (c.toNat - 0x10000) % 0x400]

def isHigh (u : Nat) : Bool := 0xD800 ≤ u && u < 0xDC00

def isLow (u : Nat) : Bool := 0xDC00 ≤ u && u < 0xE000

/-- Surrogates come in pairs. -/
def decodeUnits : List Nat → Option (List Char)
  | [] => some []
  | u :: rest =>
    if isHigh u then
      match rest with
      | [] => none
      | lo :: rest =>
        if isLow lo then
          (decodeUnits rest).map (Char.ofNat (0x10000 + (u - 0xD800) * 0x400 + (lo - 0xDC00)) :: ·)
        else none
    else if isLow u then none
    else (decodeUnits rest).map (Char.ofNat u :: ·)

theorem decodeUnits_units (c : Char) (rest : List Nat) :
    decodeUnits (units c ++ rest) = (decodeUnits rest).map (c :: ·) := by
  have hvalid : c.toNat < 0xD800 ∨ 0xDFFF < c.toNat ∧ c.toNat < 0x110000 := c.valid
  unfold units
  split
  · next hsmall =>
    have hhigh : isHigh c.toNat = false := by
      simp only [isHigh, Bool.and_eq_false_iff, decide_eq_false_iff_not]
      omega
    have hlow : isLow c.toNat = false := by
      simp only [isLow, Bool.and_eq_false_iff, decide_eq_false_iff_not]
      omega
    rw [List.singleton_append, decodeUnits.eq_def]
    simp [hhigh, hlow]
  · next hlarge =>
    have hhigh : isHigh (0xD800 + (c.toNat - 0x10000) / 0x400) = true := by
      simp only [isHigh, Bool.and_eq_true, decide_eq_true_eq]
      omega
    have hlow : isLow (0xDC00 + (c.toNat - 0x10000) % 0x400) = true := by
      simp only [isLow, Bool.and_eq_true, decide_eq_true_eq]
      omega
    have hback : 0x10000 + (0xD800 + (c.toNat - 0x10000) / 0x400 - 0xD800) * 0x400 +
        (0xDC00 + (c.toNat - 0x10000) % 0x400 - 0xDC00) = c.toNat := by
      omega
    rw [List.cons_append, List.singleton_append, decodeUnits.eq_def]
    simp only [hhigh, hlow, if_true, hback, Char.ofNat_toNat]

theorem decodeUnits_flatMap (cs : List Char) : decodeUnits (cs.flatMap units) = some cs := by
  induction cs with
  | nil => rfl
  | cons c cs ih => rw [List.flatMap_cons, decodeUnits_units, ih]; rfl

def hexValue (c : Char) : Option Nat :=
  if '0' ≤ c ∧ c ≤ '9' then some (c.toNat - 48)
  else if 'a' ≤ c ∧ c ≤ 'f' then some (c.toNat - 87)
  else if 'A' ≤ c ∧ c ≤ 'F' then some (c.toNat - 55)
  else none

def hexUnit (a b c d : Char) : Option Nat := do
  let a ← hexValue a
  let b ← hexValue b
  let c ← hexValue c
  let d ← hexValue d
  return ((a * 16 + b) * 16 + c) * 16 + d

/-- What stands for a code unit after a backslash, unless it is spelt out in four digits. -/
def shortEscape (l : Char) : Option Nat :=
  if l = '"' ∨ l = '\\' ∨ l = '/' then some l.toNat
  else if l = 'n' then some 10
  else if l = 'r' then some 13
  else if l = 't' then some 9
  else if l = 'f' then some 12
  else if l = 'b' then some 8
  else none

/-- The code units up to the closing quote. -/
def readUnits : List Char → Option (List Nat × List Char)
  | [] => none
  | c :: rest =>
    if c = '"' then some ([], rest)
    else if c = '\\' then
      match rest with
      | [] => none
      | l :: rest =>
        if l = 'u' then
          match rest with
          | a :: b :: c :: d :: rest => (hexUnit a b c d).bind fun u => (readUnits rest).map fun p => (u :: p.1, p.2)
          | _ => none
        else (shortEscape l).bind fun u => (readUnits rest).map fun p => (u :: p.1, p.2)
    else if c.toNat < 32 then none
    else (readUnits rest).map fun p => (units c ++ p.1, p.2)

/-- A string whose opening quote has been read. -/
def readString (cs : List Char) : Option (String × List Char) :=
  (readUnits cs).bind fun p => (decodeUnits p.1).map fun s => (String.ofList s, p.2)

theorem hexUnit_unitEscape {n : Nat} (h : n < 0x10000) :
    hexUnit (Nat.digitChar (n / 4096 % 16)) (Nat.digitChar (n / 256 % 16)) (Nat.digitChar (n / 16 % 16))
      (Nat.digitChar (n / 1 % 16)) = some n := by
  have hvalue : ∀ d < 16, hexValue (Nat.digitChar d) = some d := by decide
  have hdigit (m : Nat) : hexValue (Nat.digitChar (m % 16)) = some (m % 16) := hvalue _ (Nat.mod_lt m (by omega))
  simp only [hexUnit, hdigit, Option.bind_eq_bind, Option.bind_some]
  refine congrArg some ?_
  omega

theorem readUnits_unitEscape {n : Nat} (h : n < 0x10000) (rest : List Char) :
    readUnits (unitEscape n ++ rest) = (readUnits rest).map fun p => (n :: p.1, p.2) := by
  rw [unitEscape, List.map_cons, List.map_cons, List.map_cons, List.map_cons, List.map_nil]
  simp only [List.cons_append, List.nil_append]
  rw [readUnits.eq_def]
  simp only [if_neg (by decide : ¬ '\\' = '"'), if_true, hexUnit_unitEscape h, Option.bind_some]

theorem readUnits_short {l : Char} {n : Nat} (hu : l ≠ 'u') (h : shortEscape l = some n) (rest : List Char) :
    readUnits ('\\' :: l :: rest) = (readUnits rest).map fun p => (n :: p.1, p.2) := by
  rw [readUnits.eq_def]
  simp only [if_neg (by decide : ¬ '\\' = '"'), if_true, if_neg hu, h, Option.bind_some]

/-- A character is read as the code units that its escape spells. -/
theorem readUnits_escape (c : Char) (rest : List Char) :
    readUnits (escape c ++ rest) = (readUnits rest).map fun p => (units c ++ p.1, p.2) := by
  have hvalid : c.toNat < 0xD800 ∨ 0xDFFF < c.toNat ∧ c.toNat < 0x110000 := c.valid
  have hone (h : c.toNat < 0x10000) : units c = [c.toNat] := if_pos h
  unfold escape
  split_ifs with hquote hn hr ht hf hb hplain hsmall
  · rw [List.cons_append, List.singleton_append]
    rcases hquote with rfl | rfl
    · exact readUnits_short (by decide) (by decide) rest
    · exact readUnits_short (by decide) (by decide) rest
  · rw [hn]
    exact readUnits_short (by decide) (by decide) rest
  · rw [hr]
    exact readUnits_short (by decide) (by decide) rest
  · rw [ht]
    exact readUnits_short (by decide) (by decide) rest
  · rw [hone (by omega), hf]
    exact readUnits_short (by decide) (by decide) rest
  · rw [hone (by omega), hb]
    exact readUnits_short (by decide) (by decide) rest
  · obtain ⟨hq, hs⟩ := not_or.mp hquote
    rw [List.singleton_append, readUnits.eq_def]
    simp only [if_neg hq, if_neg hs, if_neg (by omega : ¬ c.toNat < 32)]
  · rw [readUnits_unitEscape hsmall, hone hsmall]
    rfl
  · have hunits : units c =
        [0xD800 + (c.toNat - 0x10000) / 0x400, 0xDC00 + (c.toNat - 0x10000) % 0x400] := if_neg hsmall
    rw [List.append_assoc, readUnits_unitEscape (by omega), readUnits_unitEscape (by omega), hunits, Option.map_map]
    rfl

theorem readUnits_flatMap (cs rest : List Char) :
    readUnits (cs.flatMap escape ++ '"' :: rest) = some (cs.flatMap units, rest) := by
  induction cs with
  | nil =>
    rw [List.flatMap_nil, List.nil_append, readUnits.eq_def]
    simp
  | cons c cs ih => rw [List.flatMap_cons, List.append_assoc, readUnits_escape, ih]; rfl

/-- A string is read back. -/
theorem readString_flatMap (s : String) (rest : List Char) :
    readString (s.toList.flatMap escape ++ '"' :: rest) = some (s, rest) := by
  rw [readString, readUnits_flatMap]
  simp [decodeUnits_flatMap]

/-! ## Objects -/

variable {α : Type}

/-- The entries of an object up to its closing brace, at most `fuel` of them. -/
def readEntries (item : List Char → Option (α × List Char)) : Nat → List Char → Option (List (String × α) × List Char)
  | 0, _ => none
  | fuel + 1, '"' :: cs =>
    (readString cs).bind fun (key, cs) =>
      match cs with
      | ':' :: cs =>
        (item cs).bind fun (v, cs) =>
          match cs with
          | ',' :: cs => (readEntries item fuel cs).map fun (entries, cs) => ((key, v) :: entries, cs)
          | '\x7d' :: cs => some ([(key, v)], cs)
          | _ => none
      | _ => none
  | _ + 1, _ => none

def readObject (item : List Char → Option (α × List Char)) : List Char → Option (List (String × α) × List Char)
  | '\x7b' :: '\x7d' :: cs => some ([], cs)
  | '\x7b' :: cs => readEntries item cs.length cs
  | _ => none

/-- The text of an object. -/
def objectText (entries : List (List Char)) : List Char := '\x7b' :: [','].intercalate entries ++ ['\x7d']

/-- An item that is read back after its text makes an object that is. -/
theorem readEntries_text {item : List Char → Option (α × List Char)} {text : α → List Char}
    (hitem : ∀ v c rest, c = ',' ∨ c = '\x7d' → item (text v ++ c :: rest) = some (v, c :: rest))
    (entries : List (String × α)) (hne : entries ≠ []) (fuel : Nat) (hfuel : entries.length ≤ fuel) (rest : List Char) :
    readEntries item fuel
      ([','].intercalate (entries.map fun e => dumpsString e.1 ++ ':' :: text e.2) ++ '\x7d' :: rest) =
        some (entries, rest) := by
  induction entries generalizing fuel with
  | nil => exact absurd rfl hne
  | cons e entries ih =>
    obtain ⟨key, v⟩ := e
    cases fuel with
    | zero => simp at hfuel
    | succ fuel =>
      cases entries with
      | nil =>
        simp only [List.map_cons, List.map_nil, List.intercalate_singleton, dumpsString, List.cons_append, List.append_assoc,
          List.nil_append]
        rw [readEntries, readString_flatMap]
        simp only [Option.bind_some, hitem v '\x7d' rest (.inr rfl)]
      | cons e' entries =>
        rw [List.map_cons, List.map_cons, List.intercalate_cons_cons]
        have hrest := ih (by simp) fuel (by simpa using hfuel)
        rw [List.map_cons] at hrest
        simp only [dumpsString, List.cons_append, List.append_assoc, List.nil_append] at hrest ⊢
        rw [readEntries, readString_flatMap]
        simp only [Option.bind_some, hitem v ',' _ (.inl rfl)]
        rw [hrest]
        rfl

theorem length_le_intercalate (sep : List Char) (hsep : sep ≠ []) (texts : List (List Char)) :
    texts.length ≤ (sep.intercalate texts).length + 1 := by
  induction texts with
  | nil => simp
  | cons text texts ih =>
    cases texts with
    | nil => simp
    | cons text' texts =>
      have hpos := List.length_pos_of_ne_nil hsep
      rw [List.intercalate_cons_cons, List.length_append, List.length_append]
      simp only [List.length_cons] at ih ⊢
      omega

theorem readObject_nonempty {item : List Char → Option (α × List Char)} {cs : List Char} (h : cs.head? ≠ some '\x7d') :
    readObject item ('\x7b' :: cs) = readEntries item cs.length cs := by
  cases cs with
  | nil => rfl
  | cons c cs =>
    rw [readObject]
    rintro _ heq
    simp [(List.cons.inj heq).1] at h

theorem readObject_text {item : List Char → Option (α × List Char)} {text : α → List Char}
    (hitem : ∀ v c rest, c = ',' ∨ c = '\x7d' → item (text v ++ c :: rest) = some (v, c :: rest))
    (entries : List (String × α)) (rest : List Char) :
    readObject item (objectText (entries.map fun e => dumpsString e.1 ++ ':' :: text e.2) ++ rest) =
      some (entries, rest) := by
  cases entries with
  | nil => rfl
  | cons e entries =>
    have hlength := length_le_intercalate [','] (by simp)
      ((e :: entries).map fun e => dumpsString e.1 ++ ':' :: text e.2)
    have hread := readEntries_text hitem (e :: entries) (by simp)
      ([','].intercalate ((e :: entries).map fun e => dumpsString e.1 ++ ':' :: text e.2) ++ '\x7d' :: rest).length
      (by
        simp only [List.length_append, List.length_cons, List.length_map] at hlength ⊢
        omega) rest
    rw [objectText, List.append_assoc, List.singleton_append, List.cons_append, ← hread]
    exact readObject_nonempty (by cases entries <;> simp [dumpsString, List.intercalate_cons_cons])

/-! ## Fields -/

def isNumeral (c : Char) : Bool := c.isDigit || c == '-' || c == '+' || c == '.' || c == 'e'

/-- The text of a number. -/
structure Numeral where
  chars : List Char
  nonempty : chars ≠ []
  numeral : ∀ c ∈ chars, isNumeral c = true

inductive Field where
  | text (s : String)
  | numeral (n : Numeral)
  | object (entries : List (String × String))

def Field.compact : Field → List Char
  | .text s => dumpsString s
  | .numeral n => n.chars
  | .object entries => objectText (entries.map fun e => dumpsString e.1 ++ ':' :: dumpsString e.2)

def readText : List Char → Option (String × List Char)
  | '"' :: cs => readString cs
  | _ => none

def readNumeral (cs : List Char) : Option (Numeral × List Char) :=
  if h : cs.takeWhile isNumeral = [] then none
  else some (⟨cs.takeWhile isNumeral, h, fun _ hc => List.mem_takeWhile_imp hc⟩, cs.dropWhile isNumeral)

def readField (cs : List Char) : Option (Field × List Char) :=
  match cs.head? with
  | some '"' => (readText cs).map fun p => (.text p.1, p.2)
  | some '\x7b' => (readObject readText cs).map fun p => (.object p.1, p.2)
  | _ => (readNumeral cs).map fun p => (.numeral p.1, p.2)

/-- The fields of an object that is all of the text. -/
def readFields (cs : List Char) : Option (List (String × Field)) :=
  match readObject readField cs with
  | some (fields, []) => some fields
  | _ => none

theorem readText_dumpsString (s : String) (rest : List Char) : readText (dumpsString s ++ rest) = some (s, rest) := by
  simp only [dumpsString, List.cons_append, List.append_assoc, List.nil_append, readText]
  exact readString_flatMap s rest

theorem readNumeral_chars (n : Numeral) (c : Char) (rest : List Char) (hc : isNumeral c = false) :
    readNumeral (n.chars ++ c :: rest) = some (n, c :: rest) := by
  have htake : (n.chars ++ c :: rest).takeWhile isNumeral = n.chars := by
    rw [List.takeWhile_append_of_pos n.numeral, List.takeWhile_cons_of_neg (by simp [hc]), List.append_nil]
  have hdrop : (n.chars ++ c :: rest).dropWhile isNumeral = c :: rest := by
    rw [List.dropWhile_append_of_pos n.numeral, List.dropWhile_cons_of_neg (by simp [hc])]
  have hne : ¬ (n.chars ++ c :: rest).takeWhile isNumeral = [] := by
    rw [htake]
    exact n.nonempty
  rw [readNumeral, dif_neg hne]
  simp only [htake, hdrop]

theorem readField_compact (f : Field) (c : Char) (rest : List Char) (hc : c = ',' ∨ c = '\x7d') :
    readField (f.compact ++ c :: rest) = some (f, c :: rest) := by
  have hc' : isNumeral c = false := by rcases hc with rfl | rfl <;> decide
  cases f with
  | text s =>
    have hhead : (dumpsString s ++ c :: rest).head? = some '"' := rfl
    simp only [Field.compact, readField, hhead, readText_dumpsString, Option.map_some]
  | object entries =>
    have hread := readObject_text (fun v c rest _ => readText_dumpsString v (c :: rest)) entries (c :: rest)
    have hhead (texts : List (List Char)) : (objectText texts ++ c :: rest).head? = some '\x7b' := rfl
    simp only [Field.compact, readField, hhead, hread, Option.map_some]
  | numeral n =>
    have hread := readNumeral_chars n c rest hc'
    obtain ⟨chars, hne, hall⟩ := n
    cases chars with
    | nil => exact absurd rfl hne
    | cons d chars =>
      have hd : isNumeral d = true := hall d List.mem_cons_self
      have hquote : d ≠ '"' := by
        rintro rfl
        exact absurd hd (by decide)
      have hbrace : d ≠ '\x7b' := by
        rintro rfl
        exact absurd hd (by decide)
      simp only [Field.compact, readField, List.cons_append, List.head?_cons] at hread ⊢
      split
      · next heq => exact absurd (Option.some.inj heq) hquote
      · next heq => exact absurd (Option.some.inj heq) hbrace
      · rw [hread]
        rfl

/-- What an object of fields is written as is read back as those fields. -/
theorem readFields_text (fields : List (String × Field)) :
    readFields (objectText (fields.map fun f => dumpsString f.1 ++ ':' :: f.2.compact)) = some fields := by
  have hread := readObject_text readField_compact fields []
  rw [List.append_nil] at hread
  rw [readFields, hread]

/-! ## One line -/

/-- No control character is written. -/
theorem escape_printable {c d : Char} (h : d ∈ escape c) : 32 ≤ d.toNat := by
  have hdigit : ∀ n < 16, 32 ≤ (Nat.digitChar n).toNat := by decide
  have hunit (n : Nat) (h : d ∈ unitEscape n) : 32 ≤ d.toNat := by
    simp only [unitEscape, List.map_cons, List.map_nil, List.mem_cons, List.not_mem_nil, or_false] at h
    rcases h with rfl | rfl | rfl | rfl | rfl | rfl
    · decide
    · decide
    all_goals exact hdigit _ (Nat.mod_lt _ (by omega))
  have hpair {a : Char} (h : d ∈ ['\\', a]) (ha : 32 ≤ a.toNat) : 32 ≤ d.toNat := by
    rcases List.mem_pair.mp h with rfl | rfl
    · decide
    · exact ha
  unfold escape at h
  split_ifs at h with hquote hn hr ht hf hb hplain hsmall
  · exact hpair h (by rcases hquote with rfl | rfl <;> decide)
  · exact hpair h (by decide)
  · exact hpair h (by decide)
  · exact hpair h (by decide)
  · exact hpair h (by decide)
  · exact hpair h (by decide)
  · rw [List.mem_singleton.mp h]
    exact hplain.1
  · exact hunit _ h
  · rcases List.mem_append.mp h with h | h
    · exact hunit _ h
    · exact hunit _ h

def Printable (cs : List Char) : Prop := ∀ c ∈ cs, 32 ≤ c.toNat

instance (cs : List Char) : Decidable (Printable cs) := List.decidableBAll _ cs

theorem printable_append {xs ys : List Char} (hx : Printable xs) (hy : Printable ys) : Printable (xs ++ ys) :=
  List.forall_mem_append.mpr ⟨hx, hy⟩

theorem printable_cons {c : Char} {cs : List Char} (hc : 32 ≤ c.toNat) (hcs : Printable cs) : Printable (c :: cs) :=
  List.forall_mem_cons.mpr ⟨hc, hcs⟩

theorem printable_dumpsString (s : String) : Printable (dumpsString s) := by
  have hescaped : Printable (s.toList.flatMap escape) := by
    intro d hd
    obtain ⟨c, -, hc⟩ := List.mem_flatMap.mp hd
    exact escape_printable hc
  exact printable_append (printable_cons (by decide) hescaped) (by decide)

theorem printable_objectText {texts : List (List Char)} (h : ∀ t ∈ texts, Printable t) : Printable (objectText texts) := by
  refine printable_append (printable_cons (by decide) fun c hc => ?_) (by decide)
  rcases Lib.mem_intercalate hc with hc | ⟨t, ht, hc⟩
  · rw [List.mem_singleton.mp hc]
    decide
  · exact h t ht c hc

theorem isNumeral_printable {c : Char} (h : isNumeral c = true) : 32 ≤ c.toNat := by
  simp only [isNumeral, Bool.or_eq_true, beq_iff_eq] at h
  rcases h with (((h | rfl) | rfl) | rfl) | rfl
  · have hdigit : 48 ≤ c.toNat := by
      simp only [Char.isDigit, Bool.and_eq_true, decide_eq_true_eq] at h
      exact h.1
    omega
  all_goals decide

theorem Field.printable (f : Field) : Printable f.compact := by
  cases f with
  | text s => exact printable_dumpsString s
  | numeral n => exact fun c hc => isNumeral_printable (n.numeral c hc)
  | object entries =>
    apply printable_objectText
    intro t ht
    obtain ⟨e, -, rfl⟩ := List.mem_map.mp ht
    exact printable_append (printable_dumpsString e.1) (printable_cons (by decide) (printable_dumpsString e.2))

theorem objectText_printable (fields : List (String × Field)) :
    Printable (objectText (fields.map fun f => dumpsString f.1 ++ ':' :: f.2.compact)) := by
  apply printable_objectText
  intro t ht
  obtain ⟨f, -, rfl⟩ := List.mem_map.mp ht
  exact printable_append (printable_dumpsString f.1) (printable_cons (by decide) f.2.printable)

end Occp.Json
