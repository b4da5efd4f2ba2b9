import Occp.JsonText
import Occp.Lib.Numerals
import Occp.Lib.Sequences

/-!
# Reading any JSON text (`json.loads`)

With blanks between the tokens, and the last entry for a key that comes twice. No number is infinite or NaN, and an
integer may have any number of digits. What Python makes of floats is a parameter.
-/

namespace Occp.Json

open Lib.Sequences
open Lib.Numerals (Token Stops)

/-- The text of a float, and the float that a text is read as. -/
structure Floats where
  text : Rat → String
  value : List Char → Rat

def isBlank (c : Char) : Bool := c == ' ' || c == '\t' || c == '\n' || c == '\r'

def integer : List Char → Int
  | '-' :: ds => -(Nat.ofDigitChars 10 ds 0 : Int)
  | ds => Nat.ofDigitChars 10 ds 0

variable (F : Floats)

def number (t : Token) : Value := if t.isFloat then .float (F.value t.chars) else .int (integer t.chars)

def literals : List (String × Value) := [("null", .none), ("true", .bool true), ("false", .bool false)]

def readLiteral (cs : List Char) : Option (Value × List Char) :=
  literals.findSome? fun e => if e.1.toList.isPrefixOf cs then some (e.2, cs.drop e.1.toList.length) else none

def readColon : List Char → Option (List Char)
  | [] => none
  | c :: cs => if c = ':' then some (skip isBlank cs) else none

/-- A key and its value. -/
def readMember (item : List Char → Option (Value × List Char)) : List Char → Option ((String × Value) × List Char)
  | [] => none
  | c :: cs =>
    if c = '"' then
      (readString cs).bind fun p => (readColon (skip isBlank p.2)).bind fun rest =>
        (item rest).map fun q => ((p.1, q.1), q.2)
    else none

/-- A value, and the text behind it; no value is nested deeper than `n`. -/
def readValue : (n : Nat) → List Char → Option (Value × List Char)
  | 0, _ => none
  | _ + 1, [] => none
  | n + 1, c :: cs =>
    if c = '"' then (readString cs).map fun p => (.str p.1, p.2)
    else if c = '[' then
      if (skip isBlank cs).head? = some ']' then some (.list [], (skip isBlank cs).tail)
      else (readSequence isBlank (readValue n) ',' ']' cs.length cs).map fun p => (.list p.1, p.2)
    else if c = '\x7b' then
      if (skip isBlank cs).head? = some '\x7d' then some (.dict [], (skip isBlank cs).tail)
      else
        (readSequence isBlank (readMember (readValue n)) ',' '\x7d' cs.length cs).map fun p =>
          (.dict (Dict.setAll [] p.1), p.2)
    else
      match readLiteral (c :: cs) with
      | some r => some r
      | none => (Lib.Numerals.read (c :: cs)).map fun p => (number F p.1, p.2)

/-- `json.loads`. -/
def loads (text : List Char) : Option Value :=
  match readValue F (text.length + 1) (skip isBlank text) with
  | some (v, rest) => if skip isBlank rest = [] then some v else none
  | none => none

/-! ## The grammar -/

/-- The rest of a string, with its closing quote. -/
inductive StringBody : List Char → Prop
  | close : StringBody ['"']
  | plain {c : Char} {w : List Char} (hquote : c ≠ '"') (hslash : c ≠ '\\') (h : StringBody w) : StringBody (c :: w)
  | escape (l : Char) {w : List Char} (h : StringBody w) : StringBody ('\\' :: l :: w)

/-- The text is the rest of this string. -/
structure Quoted (s : String) (w : List Char) : Prop where
  body : StringBody w
  read : ∀ more, readString (w ++ more) = some (s, more)

/-- The text is a numeral with this value. -/
structure Counted (v : Value) (w : List Char) : Prop where
  token : ∃ t, v = number F t ∧ w = t.chars ∧ ∀ more, Stops more → Lib.Numerals.read (w ++ more) = some (t, more)
  chars : ∀ c ∈ w, Lib.Numerals.isNumeralChar c = true
  head : ∃ c rest, w = c :: rest ∧ (c.isDigit = true ∨ c = '-')

/-- An entry of an object as it is written. -/
structure Member where
  before : List Char
  key : String
  keyText : List Char
  beforeColon : List Char
  afterColon : List Char
  value : Value
  text : List Char
  after : List Char

namespace Member

def chars (m : Member) : List Char := '"' :: m.keyText ++ m.beforeColon ++ ':' :: m.afterColon ++ m.text

def part (m : Member) : Part Char (String × Value) := ⟨m.before, (m.key, m.value), m.chars, m.after⟩

structure Written (m : Member) : Prop where
  key : Quoted m.key m.keyText
  before : ∀ c ∈ m.before, isBlank c = true
  beforeColon : ∀ c ∈ m.beforeColon, isBlank c = true
  afterColon : ∀ c ∈ m.afterColon, isBlank c = true
  after : ∀ c ∈ m.after, isBlank c = true

theorem Written.padded {m : Member} (h : m.Written) : m.part.Padded isBlank :=
  ⟨h.before, h.after, fun c hc => by cases hc; decide⟩

end Member

/-- The text is one for the value. -/
inductive Spells : Value → List Char → Prop
  | literal {word : String} {v : Value} (h : (word, v) ∈ literals) : Spells v word.toList
  | number {v : Value} {w : List Char} (h : Counted F v w) : Spells v w
  | str {s : String} {w : List Char} (h : Quoted s w) : Spells (.str s) ('"' :: w)
  | emptyList {gap : List Char} (hgap : ∀ c ∈ gap, isBlank c = true) : Spells (.list []) ('[' :: gap ++ [']'])
  | list {parts : List (Part Char Value)} (hne : parts ≠ []) (hpadded : ∀ p ∈ parts, p.Padded isBlank)
      (h : ∀ p ∈ parts, Spells p.value p.text) :
      Spells (.list (parts.map Part.value)) ('[' :: sequenceText ',' parts ++ [']'])
  | emptyDict {gap : List Char} (hgap : ∀ c ∈ gap, isBlank c = true) : Spells (.dict []) ('\x7b' :: gap ++ ['\x7d'])
  | dict {members : List Member} (hne : members ≠ []) (hwritten : ∀ m ∈ members, m.Written)
      (h : ∀ m ∈ members, Spells m.value m.text) :
      Spells (.dict (Dict.setAll [] (members.map fun m => (m.key, m.value))))
        ('\x7b' :: sequenceText ',' (members.map Member.part) ++ ['\x7d'])

variable {F}

/-! ## Strings -/

theorem plain_of_hexValue {c : Char} {n : Nat} (h : hexValue c = some n) : c ≠ '"' ∧ c ≠ '\\' := by
  constructor
  · rintro rfl
    cases h
  · rintro rfl
    cases h

theorem hexUnit_plain {a b c d : Char} {u : Nat} (h : hexUnit a b c d = some u) :
    (a ≠ '"' ∧ a ≠ '\\') ∧ (b ≠ '"' ∧ b ≠ '\\') ∧ (c ≠ '"' ∧ c ≠ '\\') ∧ d ≠ '"' ∧ d ≠ '\\' := by
  simp only [hexUnit, Option.bind_eq_bind, Option.bind_eq_some_iff] at h
  obtain ⟨_, ha, _, hb, _, hc, _, hd, -⟩ := h
  exact ⟨plain_of_hexValue ha, plain_of_hexValue hb, plain_of_hexValue hc, plain_of_hexValue hd⟩

/-- What is read of a string does not depend on what comes behind it. -/
theorem readUnits_sound (cs : List Char) {us : List Nat} {rest : List Char} (h : readUnits cs = some (us, rest)) :
    ∃ w, cs = w ++ rest ∧ StringBody w ∧ ∀ more, readUnits (w ++ more) = some (us, more) := by
  induction cs using readUnits.induct generalizing us with
  | case1 => cases h
  | case2 cs =>
    rw [readUnits.eq_def] at h
    cases h
    exact ⟨['"'], rfl, .close, fun more => by rw [List.singleton_append, readUnits.eq_def]; simp⟩
  | case3 => cases h
  | case4 a b c d cs hslash ih =>
    rw [readUnits.eq_def] at h
    simp only [if_neg hslash, if_true, Option.bind_eq_some_iff, Option.map_eq_some_iff] at h
    obtain ⟨u, hu, ⟨us', rest'⟩, hread, heq⟩ := h
    cases heq
    obtain ⟨w, rfl, hbody, hmore⟩ := ih hread
    obtain ⟨⟨ha, ha'⟩, ⟨hb, hb'⟩, ⟨hc, hc'⟩, hd, hd'⟩ := hexUnit_plain hu
    refine ⟨'\\' :: 'u' :: a :: b :: c :: d :: w, rfl,
      .escape 'u' (.plain ha ha' (.plain hb hb' (.plain hc hc' (.plain hd hd' hbody)))), fun more => ?_⟩
    simp only [List.cons_append]
    rw [readUnits.eq_def]
    simp only [if_neg hslash, if_true, hu, hmore, Option.bind_some, Option.map_some]
  | case5 cs hnot hslash =>
    rw [readUnits.eq_def] at h
    simp only [if_neg hslash, if_true] at h
    cases h
  | case6 l cs hl hslash ih =>
    rw [readUnits.eq_def] at h
    simp only [if_neg hslash, if_true, if_neg hl, Option.bind_eq_some_iff, Option.map_eq_some_iff] at h
    obtain ⟨u, hu, ⟨us', rest'⟩, hread, heq⟩ := h
    cases heq
    obtain ⟨w, rfl, hbody, hmore⟩ := ih hread
    refine ⟨'\\' :: l :: w, rfl, .escape l hbody, fun more => ?_⟩
    simp only [List.cons_append]
    rw [readUnits.eq_def]
    simp only [if_neg hslash, if_true, if_neg hl, hu, hmore, Option.bind_some, Option.map_some]
  | case7 c cs hquote hslash hlow =>
    rw [readUnits.eq_def] at h
    simp only [if_neg hquote, if_neg hslash, if_pos hlow] at h
    cases h
  | case8 c cs hquote hslash hlow ih =>
    rw [readUnits.eq_def] at h
    simp only [if_neg hquote, if_neg hslash, if_neg hlow, Option.map_eq_some_iff] at h
    obtain ⟨⟨us', rest'⟩, hread, heq⟩ := h
    cases heq
    obtain ⟨w, rfl, hbody, hmore⟩ := ih hread
    refine ⟨c :: w, rfl, .plain hquote hslash hbody, fun more => ?_⟩
    rw [List.cons_append, readUnits.eq_def]
    simp only [if_neg hquote, if_neg hslash, if_neg hlow, hmore, Option.map_some]

theorem readString_sound {cs rest : List Char} {s : String} (h : readString cs = some (s, rest)) :
    ∃ w, cs = w ++ rest ∧ Quoted s w := by
  obtain ⟨⟨us, rest'⟩, hunits, hdecode⟩ := Option.bind_eq_some_iff.mp h
  obtain ⟨chars, hchars, heq⟩ := Option.map_eq_some_iff.mp hdecode
  cases heq
  obtain ⟨w, hsplit, hbody, hmore⟩ := readUnits_sound cs hunits
  refine ⟨w, hsplit, hbody, fun more => ?_⟩
  rw [readString, hmore, Option.bind_some]
  dsimp only at hchars ⊢
  rw [hchars, Option.map_some]

theorem quoted_dumpsString (s : String) : Quoted s (s.toList.flatMap escape ++ ['"']) := by
  have hread (more : List Char) : readString (s.toList.flatMap escape ++ ['"'] ++ more) = some (s, more) := by
    rw [List.append_assoc]
    exact readString_flatMap s more
  obtain ⟨w, hsplit, hquoted⟩ := readString_sound (hread [])
  rw [List.append_nil, List.append_nil] at hsplit
  rw [hsplit]
  exact hquoted

/-! ## What is read is in the grammar -/

theorem Spells.ne_nil {v : Value} {w : List Char} (h : Spells F v w) : w ≠ [] := by
  cases h with
  | literal h =>
    simp only [literals, List.mem_cons, List.not_mem_nil, or_false, Prod.mk.injEq] at h
    rcases h with ⟨rfl, -⟩ | ⟨rfl, -⟩ | ⟨rfl, -⟩ <;> decide
  | number h =>
    obtain ⟨c, rest, rfl, -⟩ := h.head
    exact List.cons_ne_nil c rest
  | _ => exact List.cons_ne_nil _ _

theorem readLiteral_sound {cs rest : List Char} {v : Value} (h : readLiteral cs = some (v, rest)) :
    ∃ word, (word, v) ∈ literals ∧ cs = word.toList ++ rest := by
  obtain ⟨e, he, h⟩ := List.exists_of_findSome?_eq_some h
  split at h
  · next hstart =>
    cases h
    obtain ⟨tail, rfl⟩ := List.isPrefixOf_iff_prefix.mp hstart
    exact ⟨e.1, he, by rw [List.drop_left]⟩
  · cases h

theorem readColon_sound {cs rest : List Char} (h : readColon cs = some rest) :
    ∃ gap, cs = ':' :: gap ++ rest ∧ ∀ c ∈ gap, isBlank c = true := by
  cases cs with
  | nil => cases h
  | cons c cs =>
    rw [readColon] at h
    split at h
    · next hc =>
      cases h
      obtain ⟨gap, hgap, hblank⟩ := skip_split isBlank cs
      exact ⟨gap, by rw [hc, List.cons_append, ← hgap], hblank⟩
    · cases h

/-- A member as it is written, up to the blanks around it. -/
def SpellsMember (F : Floats) (e : String × Value) (w : List Char) : Prop :=
  ∃ m : Member, (m.key, m.value) = e ∧ m.chars = w ∧ m.before = [] ∧ m.after = [] ∧ m.Written ∧ Spells F m.value m.text

theorem readMember_sound {item : List Char → Option (Value × List Char)}
    (hitem : ∀ cs v rest, item cs = some (v, rest) → ∃ w, cs = w ++ rest ∧ w ≠ [] ∧ Spells F v w) (cs : List Char)
    (e : String × Value) (rest : List Char) (h : readMember item cs = some (e, rest)) :
    ∃ w, cs = w ++ rest ∧ w ≠ [] ∧ SpellsMember F e w := by
  cases cs with
  | nil => cases h
  | cons c cs =>
    rw [readMember] at h
    split at h
    · next hc =>
      simp only [Option.bind_eq_some_iff, Option.map_eq_some_iff] at h
      obtain ⟨⟨key, behindKey⟩, hkey, behindColon, hcolon, ⟨v, rest'⟩, hv, heq⟩ := h
      cases heq
      obtain ⟨keyText, hsplit, hquoted⟩ := readString_sound hkey
      obtain ⟨beforeColon, hbefore, hblank⟩ := skip_split isBlank behindKey
      obtain ⟨afterColon, hafter, hblank'⟩ := readColon_sound hcolon
      obtain ⟨w, hw, hne, hspells⟩ := hitem _ _ _ hv
      refine ⟨Member.chars ⟨[], key, keyText, beforeColon, afterColon, v, w, []⟩, ?_, List.cons_ne_nil _ _,
        ⟨[], key, keyText, beforeColon, afterColon, v, w, []⟩, rfl, rfl, rfl, rfl,
        ⟨hquoted, nofun, hblank, hblank', nofun⟩, hspells⟩
      dsimp only at hbefore hafter
      rw [hc, hsplit, hbefore, hafter, hw]
      simp only [Member.chars, List.append_assoc, List.cons_append]
    · cases h

/-- Members with the blanks around them. -/
theorem exists_members {parts : List (Part Char (String × Value))} (hpadded : ∀ p ∈ parts, p.Padded isBlank)
    (h : ∀ p ∈ parts, SpellsMember F p.value p.text) :
    ∃ members : List Member, members.map Member.part = parts ∧
      ∀ m ∈ members, m.Written ∧ Spells F m.value m.text := by
  induction parts with
  | nil => exact ⟨[], rfl, nofun⟩
  | cons p parts ih =>
    obtain ⟨members, hmembers, hall⟩ :=
      ih (fun q hq => hpadded q (List.mem_cons_of_mem p hq)) fun q hq => h q (List.mem_cons_of_mem p hq)
    obtain ⟨m, hvalue, htext, -, -, hwritten, hspells⟩ := h p List.mem_cons_self
    have hpad := hpadded p List.mem_cons_self
    refine ⟨{ m with before := p.before, after := p.after } :: members, ?_, ?_⟩
    · rw [List.map_cons, hmembers]
      obtain ⟨before, value, text, after⟩ := p
      dsimp only at hvalue htext
      rw [← hvalue, ← htext]
      rfl
    · refine List.forall_mem_cons.mpr ⟨⟨?_, hspells⟩, hall⟩
      exact ⟨hwritten.key, hpad.before, hwritten.beforeColon, hwritten.afterColon, hpad.after⟩

theorem counted_of_read {cs rest : List Char} {t : Token} (h : Lib.Numerals.read cs = some (t, rest)) :
    cs = t.chars ++ rest ∧ Counted F (number F t) t.chars := by
  obtain ⟨hsplit, hchars, hhead, hmore⟩ := Lib.Numerals.read_spec h
  exact ⟨hsplit, ⟨t, rfl, rfl, hmore⟩, hchars, hhead⟩

theorem closing_of_head {cs : List Char} {c : Char} (h : (skip isBlank cs).head? = some c) :
    ∃ gap, cs = gap ++ c :: (skip isBlank cs).tail ∧ ∀ d ∈ gap, isBlank d = true := by
  obtain ⟨gap, hgap, hblank⟩ := skip_split isBlank cs
  refine ⟨gap, ?_, hblank⟩
  cases hskip : skip isBlank cs with
  | nil =>
    rw [hskip] at h
    cases h
  | cons d tail =>
    rw [hskip] at h hgap
    cases h
    exact hgap

/-- What is read is spelled by the text in front of what is left. -/
theorem readValue_sound {n : Nat} {cs rest : List Char} {v : Value} (h : readValue F n cs = some (v, rest)) :
    ∃ w, cs = w ++ rest ∧ Spells F v w := by
  induction n generalizing cs v rest with
  | zero => cases h
  | succ n ih =>
    have hitem : ∀ cs v rest, readValue F n cs = some (v, rest) → ∃ w, cs = w ++ rest ∧ w ≠ [] ∧ Spells F v w := by
      intro cs v rest hread
      obtain ⟨w, hw, hspells⟩ := ih hread
      exact ⟨w, hw, hspells.ne_nil, hspells⟩
    cases cs with
    | nil => cases h
    | cons c cs =>
      rw [readValue] at h
      split at h
      · next hc =>
        obtain ⟨⟨s, rest'⟩, hread, heq⟩ := Option.map_eq_some_iff.mp h
        cases heq
        obtain ⟨w, rfl, hquoted⟩ := readString_sound hread
        exact ⟨'"' :: w, by rw [hc]; rfl, .str hquoted⟩
      · split at h
        · next hc =>
          split at h
          · next hhead =>
            cases h
            obtain ⟨gap, hgap, hblank⟩ := closing_of_head hhead
            refine ⟨'[' :: gap ++ [']'], ?_, .emptyList hblank⟩
            rw [List.append_assoc, hc]
            exact congrArg ('[' :: ·) hgap
          · obtain ⟨⟨vs, rest'⟩, hread, heq⟩ := Option.map_eq_some_iff.mp h
            cases heq
            obtain ⟨parts, hne, rfl, hsplit, hall⟩ := readSequence_sound hitem hread
            refine ⟨'[' :: sequenceText ',' parts ++ [']'], ?_, .list hne (fun p hp => (hall p hp).2) fun p hp => (hall p hp).1⟩
            rw [List.append_assoc, hc]
            exact congrArg ('[' :: ·) hsplit
        · split at h
          · next hc =>
            split at h
            · next hhead =>
              cases h
              obtain ⟨gap, hgap, hblank⟩ := closing_of_head hhead
              refine ⟨'\x7b' :: gap ++ ['\x7d'], ?_, .emptyDict hblank⟩
              rw [List.append_assoc, hc]
              exact congrArg ('\x7b' :: ·) hgap
            · obtain ⟨⟨es, rest'⟩, hread, heq⟩ := Option.map_eq_some_iff.mp h
              cases heq
              obtain ⟨parts, hne, rfl, hsplit, hall⟩ := readSequence_sound (readMember_sound hitem) hread
              obtain ⟨members, rfl, hmembers⟩ :=
                exists_members (fun p hp => (hall p hp).2) fun p hp => (hall p hp).1
              refine ⟨'\x7b' :: sequenceText ',' (members.map Member.part) ++ ['\x7d'], ?_, ?_⟩
              · rw [List.append_assoc, hc]
                exact congrArg ('\x7b' :: ·) hsplit
              · have hentries : (members.map Member.part).map Part.value = members.map fun m => (m.key, m.value) := by
                  rw [List.map_map]
                  rfl
                rw [hentries]
                have hne' : members ≠ [] := fun hnil => hne (by rw [hnil]; rfl)
                exact .dict hne' (fun m hm => (hmembers m hm).1) fun m hm => (hmembers m hm).2
          · cases hliteral : readLiteral (c :: cs) with
            | some r =>
              rw [hliteral] at h
              cases h
              obtain ⟨word, hword, hsplit⟩ := readLiteral_sound hliteral
              exact ⟨word.toList, hsplit, .literal hword⟩
            | none =>
              rw [hliteral] at h
              obtain ⟨⟨t, rest'⟩, hread, heq⟩ := Option.map_eq_some_iff.mp h
              cases heq
              obtain ⟨hsplit, hcounted⟩ := counted_of_read hread
              exact ⟨t.chars, hsplit, .number hcounted⟩

/-! ## What is in the grammar is read -/

theorem ne_of_isDigit {c d : Char} (h : c.isDigit = true) (hd : d.isDigit = false) : c ≠ d := by
  rintro rfl
  exact Bool.false_ne_true (hd.symm.trans h)

theorem isBlank_of_isDigit {c : Char} (h : c.isDigit = true) : isBlank c = false := by
  have hspace : c ≠ ' ' := ne_of_isDigit h (by decide)
  have htab : c ≠ '\t' := ne_of_isDigit h (by decide)
  have hline : c ≠ '\n' := ne_of_isDigit h (by decide)
  have hreturn : c ≠ '\r' := ne_of_isDigit h (by decide)
  simp [isBlank, hspace, htab, hline, hreturn]

/-- No value starts with a blank or a closing bracket. -/
theorem Spells.head {v : Value} {w : List Char} (h : Spells F v w) :
    ∃ c rest, w = c :: rest ∧ isBlank c = false ∧ c ≠ ']' ∧ c ≠ '\x7d' := by
  cases h with
  | literal h =>
    simp only [literals, List.mem_cons, List.not_mem_nil, or_false, Prod.mk.injEq] at h
    rcases h with ⟨rfl, -⟩ | ⟨rfl, -⟩ | ⟨rfl, -⟩
    · exact ⟨'n', _, rfl, by decide⟩
    · exact ⟨'t', _, rfl, by decide⟩
    · exact ⟨'f', _, rfl, by decide⟩
  | number h =>
    obtain ⟨c, rest, rfl, hc⟩ := h.head
    refine ⟨c, rest, rfl, ?_⟩
    rcases hc with hc | rfl
    · exact ⟨isBlank_of_isDigit hc, ne_of_isDigit hc (by decide), ne_of_isDigit hc (by decide)⟩
    · decide
  | str h => exact ⟨'"', _, rfl, by decide⟩
  | emptyList hgap => exact ⟨'[', _, rfl, by decide⟩
  | list hne hpadded h => exact ⟨'[', _, rfl, by decide⟩
  | emptyDict hgap => exact ⟨'\x7b', _, rfl, by decide⟩
  | dict hne hwritten h => exact ⟨'\x7b', _, rfl, by decide⟩

theorem readLiteral_complete {word : String} {v : Value} (h : (word, v) ∈ literals) (more : List Char) :
    readLiteral (word.toList ++ more) = some (v, more) := by
  simp only [literals, List.mem_cons, List.not_mem_nil, or_false, Prod.mk.injEq] at h
  rcases h with ⟨rfl, rfl⟩ | ⟨rfl, rfl⟩ | ⟨rfl, rfl⟩ <;> rfl

theorem readLiteral_of_number {c : Char} (h : c.isDigit = true ∨ c = '-') (cs : List Char) : readLiteral (c :: cs) = none := by
  have hne (d : Char) (hd : d.isDigit = false) (hminus : d ≠ '-') : d ≠ c := by
    rcases h with h | rfl
    · exact (ne_of_isDigit h hd).symm
    · exact hminus
  have hn := hne 'n' (by decide) (by decide)
  have ht := hne 't' (by decide) (by decide)
  have hf := hne 'f' (by decide) (by decide)
  simp [readLiteral, literals, hn, ht, hf]

/-- What comes behind an item stops a numeral. -/
theorem stops_of_ends {close : Char} {more : List Char} (hclose : close = ']' ∨ close = '\x7d')
    (h : Ends isBlank ',' close more) : Stops more := by
  obtain ⟨c, rest, rfl, hc⟩ := h
  refine Lib.Numerals.stops_cons ?_ rest
  rcases hc with hc | rfl | rfl
  · simp only [isBlank, Bool.or_eq_true, beq_iff_eq] at hc
    rcases hc with ((rfl | rfl) | rfl) | rfl <;> decide
  · decide
  · rcases hclose with rfl | rfl <;> decide

theorem skip_of_head {c : Char} (hc : isBlank c = false) (cs : List Char) : skip isBlank (c :: cs) = c :: cs :=
  skip_cons hc cs

theorem Member.chars_append (m : Member) (more : List Char) :
    m.chars ++ more = '"' :: (m.keyText ++ (m.beforeColon ++ ':' :: (m.afterColon ++ (m.text ++ more)))) := by
  simp only [Member.chars, List.append_assoc, List.cons_append]

theorem readMember_complete {item : List Char → Option (Value × List Char)} {m : Member} (hm : m.Written)
    (hspells : Spells F m.value m.text) {more : List Char} (hitem : item (m.text ++ more) = some (m.value, more)) :
    readMember item (m.chars ++ more) = some ((m.key, m.value), more) := by
  obtain ⟨c, rest, htext, hblank, -⟩ := hspells.head
  have hcolon : skip isBlank (m.beforeColon ++ ':' :: (m.afterColon ++ (m.text ++ more))) =
      ':' :: (m.afterColon ++ (m.text ++ more)) := skip_append hm.beforeColon fun d hd => by cases hd; decide
  have hvalue : skip isBlank (m.afterColon ++ (m.text ++ more)) = m.text ++ more := by
    refine skip_append hm.afterColon fun d hd => ?_
    rw [htext] at hd
    cases hd
    exact hblank
  rw [Member.chars_append, readMember, if_pos rfl, hm.key.read, Option.bind_some]
  dsimp only
  rw [hcolon, readColon, if_pos rfl, hvalue, Option.bind_some, hitem]
  rfl

theorem readValue_string (n : Nat) (cs : List Char) :
    readValue F (n + 1) ('"' :: cs) = (readString cs).map fun p => (.str p.1, p.2) := by
  rw [readValue, if_pos rfl]

theorem readValue_bracket (n : Nat) (cs : List Char) :
    readValue F (n + 1) ('[' :: cs) =
      if (skip isBlank cs).head? = some ']' then some (.list [], (skip isBlank cs).tail)
      else (readSequence isBlank (readValue F n) ',' ']' cs.length cs).map fun p => (.list p.1, p.2) := by
  rw [readValue, if_neg (by decide), if_pos rfl]

theorem readValue_brace (n : Nat) (cs : List Char) :
    readValue F (n + 1) ('\x7b' :: cs) =
      if (skip isBlank cs).head? = some '\x7d' then some (.dict [], (skip isBlank cs).tail)
      else
        (readSequence isBlank (readMember (readValue F n)) ',' '\x7d' cs.length cs).map fun p =>
          (.dict (Dict.setAll [] p.1), p.2) := by
  rw [readValue, if_neg (by decide), if_neg (by decide), if_pos rfl]

theorem readValue_other {c : Char} (hc : c ≠ '"' ∧ c ≠ '[' ∧ c ≠ '\x7b') (n : Nat) (cs : List Char) :
    readValue F (n + 1) (c :: cs) =
      match readLiteral (c :: cs) with
      | some r => some r
      | none => (Lib.Numerals.read (c :: cs)).map fun p => (number F p.1, p.2) := by
  rw [readValue, if_neg hc.1, if_neg hc.2.1, if_neg hc.2.2]

theorem ends_close {gap : List Char} (hgap : ∀ c ∈ gap, isBlank c = true) {close : Char} (hclose : isBlank close = false)
    (more : List Char) : skip isBlank (gap ++ [close] ++ more) = close :: more := by
  rw [List.append_assoc]
  exact skip_append hgap fun d hd => by cases hd; exact hclose

/-- Behind an opening bracket there is an item, and no closing one. -/
theorem head_sequence_ne {α : Type} {parts : List (Part Char α)} (hne : parts ≠ []) (hpadded : ∀ p ∈ parts, p.Padded isBlank)
    {close : Char} (htext : ∀ p ∈ parts, ∃ c rest, p.text = c :: rest ∧ c ≠ close) (more : List Char) :
    (skip isBlank (sequenceText ',' parts ++ more)).head? ≠ some close := by
  have hnonempty : ∀ p ∈ parts, p.text ≠ [] := by
    intro p hp
    obtain ⟨c, rest, hc, -⟩ := htext p hp
    rw [hc]
    exact List.cons_ne_nil c rest
  obtain ⟨p, hp, tail, hskip⟩ := skip_sequenceText ',' hne hpadded hnonempty more
  obtain ⟨c, rest, hc, hclose⟩ := htext p hp
  rw [hskip, hc]
  intro heq
  exact hclose (Option.some.inj heq)

theorem readValue_emptyDict {gap : List Char} (hgap : ∀ c ∈ gap, isBlank c = true) {n : Nat}
    (hn : ('\x7b' :: gap ++ ['\x7d']).length ≤ n) (more : List Char) :
    readValue F n ('\x7b' :: gap ++ ['\x7d'] ++ more) = some (.dict [], more) := by
  cases n with
  | zero => cases hn
  | succ n =>
    rw [List.cons_append, List.cons_append, readValue_brace, ends_close hgap (by decide), List.head?_cons, if_pos rfl]
    rfl

theorem readValue_dict {members : List Member} (hne : members ≠ []) (hwritten : ∀ m ∈ members, m.Written)
    (h : ∀ m ∈ members, Spells F m.value m.text)
    (ih : ∀ m ∈ members, ∀ k, m.text.length ≤ k → ∀ more, Stops more → readValue F k (m.text ++ more) = some (m.value, more))
    {n : Nat} (hn : ('\x7b' :: sequenceText ',' (members.map Member.part) ++ ['\x7d']).length ≤ n) (more : List Char) :
    readValue F n ('\x7b' :: sequenceText ',' (members.map Member.part) ++ ['\x7d'] ++ more) =
      some (.dict (Dict.setAll [] (members.map fun m => (m.key, m.value))), more) := by
  cases n with
  | zero => cases hn
  | succ n =>
    simp only [List.length_cons, List.length_append, List.length_nil] at hn
    have hparts : members.map Member.part ≠ [] := fun hnil => hne (List.map_eq_nil_iff.mp hnil)
    have hpadded : ∀ p ∈ members.map Member.part, p.Padded isBlank :=
      List.forall_mem_map.mpr fun m hm => (hwritten m hm).padded
    have htext : ∀ p ∈ members.map Member.part, p.text ≠ [] := List.forall_mem_map.mpr fun m _ => List.cons_ne_nil _ _
    have hhead := head_sequence_ne hparts hpadded
      (List.forall_mem_map.mpr fun m _ => ⟨'"', _, rfl, (by decide : '"' ≠ '\x7d')⟩) ('\x7d' :: more)
    have hcount := length_le_sequenceText ',' (members.map Member.part)
    have hitem : ∀ p ∈ members.map Member.part, ∀ more, Ends isBlank ',' '\x7d' more →
        readMember (readValue F n) (p.text ++ more) = some (p.value, more) := by
      refine List.forall_mem_map.mpr fun m hm more hends => ?_
      refine readMember_complete (hwritten m hm) (h m hm) (ih m hm n ?_ more (stops_of_ends (.inr rfl) hends))
      have hpart : m.part ∈ members.map Member.part := List.mem_map_of_mem hm
      have hlength := length_text_le ',' hpart
      have hinner : m.text.length ≤ m.part.text.length := by
        simp only [Member.part, Member.chars, List.length_append, List.length_cons]
        omega
      omega
    have hread := readSequence_complete (by decide) (by decide) (by decide) hparts hpadded htext hitem
      (show (members.map Member.part).length ≤ (sequenceText ',' (members.map Member.part) ++ '\x7d' :: more).length by
        simp only [List.length_append, List.length_cons]
        omega) more
    have hentries : (members.map Member.part).map Part.value = members.map fun m => (m.key, m.value) := by
      rw [List.map_map]
      rfl
    rw [List.cons_append, List.cons_append, List.append_assoc, List.singleton_append, readValue_brace, if_neg hhead,
      hread, hentries]
    rfl

/-- A text of the grammar is read, whatever comes behind it; only a numeral has to be stopped. -/
theorem readValue_complete {v : Value} {w : List Char} (h : Spells F v w) {n : Nat} (hn : w.length ≤ n) {more : List Char}
    (hmore : Stops more) : readValue F n (w ++ more) = some (v, more) := by
  induction h generalizing n more with
  | @literal word v h =>
    obtain ⟨c, rest, hw, hc⟩ : ∃ c rest, word.toList = c :: rest ∧ c ≠ '"' ∧ c ≠ '[' ∧ c ≠ '\x7b' := by
      simp only [literals, List.mem_cons, List.not_mem_nil, or_false, Prod.mk.injEq] at h
      rcases h with ⟨rfl, -⟩ | ⟨rfl, -⟩ | ⟨rfl, -⟩
      · exact ⟨'n', _, rfl, by decide⟩
      · exact ⟨'t', _, rfl, by decide⟩
      · exact ⟨'f', _, rfl, by decide⟩
    have hread := readLiteral_complete h more
    rw [hw] at hn hread ⊢
    cases n with
    | zero => cases hn
    | succ n =>
      rw [List.cons_append] at hread ⊢
      rw [readValue_other hc, hread]
  | @number v w h =>
    obtain ⟨c, rest, hw, hc⟩ := h.head
    obtain ⟨t, hv, -, hread⟩ := h.token
    have hplain : c ≠ '"' ∧ c ≠ '[' ∧ c ≠ '\x7b' := by
      rcases hc with hc | rfl
      · exact ⟨ne_of_isDigit hc (by decide), ne_of_isDigit hc (by decide), ne_of_isDigit hc (by decide)⟩
      · decide
    have hread := hread more hmore
    rw [hw] at hn hread ⊢
    cases n with
    | zero => cases hn
    | succ n =>
      rw [List.cons_append] at hread ⊢
      rw [readValue_other hplain, readLiteral_of_number hc, hread, hv]
      rfl
  | str h =>
    cases n with
    | zero => cases hn
    | succ n =>
      rw [List.cons_append, readValue_string, h.read]
      rfl
  | emptyList hgap =>
    cases n with
    | zero => cases hn
    | succ n =>
      rw [List.cons_append, List.cons_append, readValue_bracket, ends_close hgap (by decide), List.head?_cons,
        if_pos rfl]
      rfl
  | @list parts hne hpadded h ih =>
    cases n with
    | zero => cases hn
    | succ n =>
      simp only [List.length_cons, List.length_append, List.length_nil] at hn
      have hhead := head_sequence_ne hne hpadded (fun p hp => by
        obtain ⟨c, rest, hc, -, hclose, -⟩ := (h p hp).head
        exact ⟨c, rest, hc, hclose⟩) (']' :: more)
      have hcount := length_le_sequenceText ',' parts
      have hitem : ∀ p ∈ parts, ∀ more, Ends isBlank ',' ']' more →
          readValue F n (p.text ++ more) = some (p.value, more) := by
        intro p hp more hends
        have hlength := length_text_le ',' hp
        exact ih p hp (by omega) (stops_of_ends (.inl rfl) hends)
      have hread := readSequence_complete (by decide) (by decide) (by decide) hne hpadded (fun p hp => (h p hp).ne_nil) hitem
        (show parts.length ≤ (sequenceText ',' parts ++ ']' :: more).length by
          simp only [List.length_append, List.length_cons]
          omega) more
      rw [List.cons_append, List.cons_append, List.append_assoc, List.singleton_append, readValue_bracket, if_neg hhead,
        hread]
      rfl
  | emptyDict hgap => exact readValue_emptyDict hgap hn more
  | dict hne hwritten h ih => exact readValue_dict hne hwritten h (fun m hm k hk more hmore => ih m hm hk hmore) hn more

/-- An object is read whatever comes behind it. -/
theorem Spells.readValue_object {v : Value} {w : List Char} (h : Spells F v ('\x7b' :: w)) {n : Nat}
    (hn : ('\x7b' :: w).length ≤ n) (more : List Char) : readValue F n ('\x7b' :: w ++ more) = some (v, more) := by
  obtain ⟨text, htext⟩ : ∃ text, text = '\x7b' :: w := ⟨_, rfl⟩
  rw [← htext] at h hn ⊢
  cases h with
  | literal h =>
    simp only [literals, List.mem_cons, List.not_mem_nil, or_false, Prod.mk.injEq] at h
    rcases h with ⟨rfl, -⟩ | ⟨rfl, -⟩ | ⟨rfl, -⟩ <;> cases htext
  | number h =>
    obtain ⟨c, rest, hw, hc⟩ := h.head
    rw [hw] at htext
    cases htext
    exact absurd hc (by decide)
  | emptyDict hgap => exact readValue_emptyDict hgap hn more
  | dict hne hwritten h =>
    exact readValue_dict hne hwritten h (fun m hm k hk more hmore => readValue_complete (h m hm) hk hmore) hn more
  | _ => cases htext

/-! ## Whole texts -/

/-- A text is loaded as a value just when it is one for it, with blanks around it. -/
theorem loads_iff {text : List Char} {v : Value} :
    loads F text = some v ↔
      ∃ before w after, text = before ++ w ++ after ∧ (∀ c ∈ before, isBlank c = true) ∧ (∀ c ∈ after, isBlank c = true) ∧
        Spells F v w := by
  unfold loads
  constructor
  · intro h
    obtain ⟨before, hbefore, hblank⟩ := skip_split isBlank text
    cases hread : readValue F (text.length + 1) (skip isBlank text) with
    | none =>
      rw [hread] at h
      cases h
    | some r =>
      obtain ⟨v', rest⟩ := r
      rw [hread] at h
      dsimp only at h
      split at h
      · next hrest =>
        cases h
        obtain ⟨w, hw, hspells⟩ := readValue_sound hread
        obtain ⟨after, hafter, hblank'⟩ := skip_split isBlank rest
        rw [hrest, List.append_nil] at hafter
        refine ⟨before, w, rest, ?_, hblank, fun c hc => hblank' c (hafter ▸ hc), hspells⟩
        rw [List.append_assoc, ← hw, ← hbefore]
      · cases h
  · rintro ⟨before, w, after, rfl, hbefore, hafter, hspells⟩
    obtain ⟨c, rest, hw, hc, -⟩ := hspells.head
    have hskip : skip isBlank (before ++ w ++ after) = w ++ after := by
      rw [List.append_assoc]
      refine skip_append hbefore fun d hd => ?_
      rw [hw] at hd
      cases hd
      exact hc
    have hstops : Stops after := by
      intro d hd
      have hblank := hafter d (List.mem_of_mem_head? hd)
      simp only [isBlank, Bool.or_eq_true, beq_iff_eq] at hblank
      rcases hblank with ((rfl | rfl) | rfl) | rfl <;> decide
    have hlength : w.length ≤ (before ++ w ++ after).length + 1 := by
      simp only [List.length_append]
      omega
    have hend : skip isBlank after = [] := by
      have hnone : ∀ c ∈ ([] : List Char).head?, isBlank c = false := nofun
      have hnil := skip_append hafter hnone
      rwa [List.append_nil] at hnil
    rw [hskip, readValue_complete hspells hlength hstops]
    dsimp only
    rw [if_pos hend]

/-- Only one value is spelled by a text. -/
theorem Spells.unique {v v' : Value} {w : List Char} (h : Spells F v w) (h' : Spells F v' w) : v = v' := by
  have hload : loads F w = some v := loads_iff.mpr ⟨[], w, [], by simp, nofun, nofun, h⟩
  have hload' : loads F w = some v' := loads_iff.mpr ⟨[], w, [], by simp, nofun, nofun, h'⟩
  exact Option.some.inj (hload.symm.trans hload')

end Occp.Json
