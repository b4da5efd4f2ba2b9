import Mathlib.Data.List.Basic

/-!
# Backslash escapes

A table of letters that stand after a backslash for special characters. Writing escapes them; reading
cuts a text at the first delimiter that is not escaped and takes the escapes back.
-/

namespace Occp.Lib

structure Escapes where
  /-- The letter that is written for a special character. -/
  letter : Char → Option Char
  /-- The character that a letter is read as. -/
  char : Char → Option Char
  letter_iff : ∀ c l, letter c = some l ↔ char l = some c
  slash : letter '\\' = some '\\'

namespace Escapes

variable (x : Escapes)

def escapeChar (c : Char) : List Char :=
  match x.letter c with
  | some l => ['\\', l]
  | none => [c]

def escape (cs : List Char) : List Char := cs.flatMap x.escapeChar

/-- No escape but those of the table is read. -/
def unescape : List Char → Option (List Char)
  | [] => some []
  | '\\' :: l :: cs => do
    let c ← x.char l
    let rest ← unescape cs
    return c :: rest
  | c :: cs => if c = '\\' then none else (unescape cs).map (c :: ·)

/-- The text before the first `stop` that is not escaped, as it stands, and the text after it. -/
def cut (stop : Char) : List Char → Option (List Char × List Char)
  | [] => none
  | '\\' :: l :: cs => (cut stop cs).map fun p => ('\\' :: l :: p.1, p.2)
  | c :: cs => if c = stop then some ([], cs) else (cut stop cs).map fun p => (c :: p.1, p.2)

/-- A field that ends in `stop`. -/
def read (stop : Char) (cs : List Char) : Option (List Char × List Char) := do
  let (raw, rest) ← cut stop cs
  let field ← x.unescape raw
  return (field, rest)

variable {x} {stop c l : Char} {cs v raw rest : List Char}

@[simp] theorem escape_nil : x.escape [] = [] := rfl

@[simp] theorem escape_cons : x.escape (c :: cs) = x.escapeChar c ++ x.escape cs := rfl

theorem escapeChar_some (h : x.letter c = some l) : x.escapeChar c = ['\\', l] := by
  simp [escapeChar, h]

theorem escapeChar_none (h : x.letter c = none) : x.escapeChar c = [c] := by
  simp [escapeChar, h]

theorem escape_of_plain (h : ∀ c ∈ cs, x.letter c = none) : x.escape cs = cs := by
  induction cs with
  | nil => rfl
  | cons c cs ih =>
    rw [escape_cons, escapeChar_none (h c List.mem_cons_self), ih fun d hd => h d (List.mem_cons_of_mem c hd)]
    rfl

/-- The backslash is special. -/
theorem ne_slash_of_letter_none (h : x.letter c = none) : c ≠ '\\' := by
  rintro rfl
  rw [x.slash] at h
  cases h

theorem char_eq_slash (h : x.char l = some '\\') : l = '\\' := by
  have hletter := (x.letter_iff '\\' l).mpr h
  rw [x.slash] at hletter
  exact (Option.some.inj hletter).symm

/-- What is written: characters that are not special, backslashes and letters. -/
theorem mem_escape {d : Char} (h : d ∈ x.escape cs) :
    d ∈ cs ∧ x.letter d = none ∨ d = '\\' ∨ ∃ c, x.letter c = some d := by
  obtain ⟨c, hc, hd⟩ := List.mem_flatMap.mp h
  cases hletter : x.letter c with
  | some l =>
    rw [escapeChar_some hletter] at hd
    rcases List.mem_pair.mp hd with rfl | rfl
    · exact .inr (.inl rfl)
    · exact .inr (.inr ⟨c, hletter⟩)
  | none =>
    rw [escapeChar_none hletter] at hd
    rw [List.mem_singleton.mp hd]
    exact .inl ⟨hc, hletter⟩

theorem mem_escape_of_mem (h : c ∈ cs) (hletter : x.letter c = none) : c ∈ x.escape cs :=
  List.mem_flatMap.mpr ⟨c, h, by rw [escapeChar_none hletter]; exact List.mem_singleton.mpr rfl⟩

/-! ## Steps -/

theorem unescape_escaped : x.unescape ('\\' :: l :: cs) = (x.char l).bind fun c => (x.unescape cs).map (c :: ·) := by
  rw [unescape]
  cases x.char l with
  | none => rfl
  | some c => cases x.unescape cs <;> rfl

theorem unescape_plain (h : c ≠ '\\') : x.unescape (c :: cs) = (x.unescape cs).map (c :: ·) := by
  rw [unescape, if_neg h]
  exact fun l rest heq => absurd heq h

theorem cut_escaped : cut stop ('\\' :: l :: cs) = (cut stop cs).map fun p => ('\\' :: l :: p.1, p.2) := by
  rw [cut]

theorem cut_stop (h : stop ≠ '\\') : cut stop (stop :: cs) = some ([], cs) := by
  rw [cut, if_pos rfl]
  exact fun l rest heq => absurd heq h

theorem cut_plain (h : c ≠ '\\') (hstop : c ≠ stop) :
    cut stop (c :: cs) = (cut stop cs).map fun p => (c :: p.1, p.2) := by
  rw [cut, if_neg hstop]
  exact fun l rest heq => absurd heq h

/-! ## Round trips -/

theorem unescape_escape_append (cs raw : List Char) :
    x.unescape (x.escape cs ++ raw) = (x.unescape raw).map (cs ++ ·) := by
  induction cs with
  | nil => simp
  | cons c cs ih =>
    rw [escape_cons]
    cases h : x.letter c with
    | some l =>
      rw [escapeChar_some h, List.append_assoc, List.cons_append, List.singleton_append, unescape_escaped,
        (x.letter_iff c l).mp h, ih]
      cases x.unescape raw <;> rfl
    | none =>
      rw [escapeChar_none h, List.append_assoc, List.singleton_append,
        unescape_plain (ne_slash_of_letter_none h), ih]
      cases x.unescape raw <;> rfl

@[simp] theorem unescape_escape (cs : List Char) : x.unescape (x.escape cs) = some cs := by
  have h := unescape_escape_append (x := x) cs []
  rw [List.append_nil] at h
  simpa [unescape] using h

/-- Escaped text has no delimiter in it. -/
theorem cut_escape_append (hstop : (x.letter stop).isSome) (cs raw : List Char) :
    cut stop (x.escape cs ++ raw) = (cut stop raw).map fun p => (x.escape cs ++ p.1, p.2) := by
  induction cs with
  | nil => simp
  | cons c cs ih =>
    rw [escape_cons]
    cases h : x.letter c with
    | some l =>
      rw [escapeChar_some h, List.append_assoc, List.cons_append, List.singleton_append, cut_escaped, ih]
      cases cut stop raw <;> rfl
    | none =>
      have hne : c ≠ stop := by
        rintro rfl
        rw [h] at hstop
        cases hstop
      rw [escapeChar_none h, List.append_assoc, List.singleton_append, cut_plain (ne_slash_of_letter_none h) hne, ih]
      cases cut stop raw <;> rfl

/-- Nor has a text without backslashes and delimiters. -/
theorem cut_plain_append (hcs : ∀ c ∈ cs, c ≠ '\\' ∧ c ≠ stop) (raw : List Char) :
    cut stop (cs ++ raw) = (cut stop raw).map fun p => (cs ++ p.1, p.2) := by
  induction cs with
  | nil => simp
  | cons c cs ih =>
    obtain ⟨hslash, hstop⟩ := hcs c List.mem_cons_self
    rw [List.cons_append, cut_plain hslash hstop, ih fun d hd => hcs d (List.mem_cons_of_mem c hd)]
    cases cut stop raw <;> rfl

theorem read_escape (hstop : (x.letter stop).isSome) (hne : stop ≠ '\\') (cs rest : List Char) :
    x.read stop (x.escape cs ++ stop :: rest) = some (cs, rest) := by
  rw [read, cut_escape_append hstop, cut_stop hne]
  simp

theorem unescape_of_plain (hcs : ∀ c ∈ cs, c ≠ '\\') : x.unescape cs = some cs := by
  induction cs with
  | nil => rfl
  | cons c cs ih =>
    rw [unescape_plain (hcs c List.mem_cons_self), ih fun d hd => hcs d (List.mem_cons_of_mem c hd)]
    rfl

theorem read_plain (hne : stop ≠ '\\') (hcs : ∀ c ∈ cs, c ≠ '\\' ∧ c ≠ stop) (rest : List Char) :
    x.read stop (cs ++ stop :: rest) = some (cs, rest) := by
  rw [read, cut_plain_append hcs, cut_stop hne]
  simp [unescape_of_plain fun c hc => (hcs c hc).1]

/-! ## Text that was not escaped -/

theorem length_unescape (h : x.unescape cs = some v) : v.length ≤ cs.length := by
  induction cs using unescape.induct generalizing v with
  | case1 =>
    cases h
    simp
  | case2 l cs ih =>
    rw [unescape_escaped] at h
    obtain ⟨c, -, hrest⟩ := Option.bind_eq_some_iff.mp h
    obtain ⟨u, hu, rfl⟩ := Option.map_eq_some_iff.mp hrest
    have := ih hu
    simp only [List.length_cons]
    omega
  | case3 cs hnot =>
    rw [unescape, if_pos rfl] at h
    · cases h
    · exact hnot
  | case4 c cs hnot hslash ih =>
    rw [unescape_plain hslash] at h
    obtain ⟨u, hu, rfl⟩ := Option.map_eq_some_iff.mp h
    have := ih hu
    simp only [List.length_cons]
    omega

theorem cut_eq_some (h : cut stop cs = some (raw, rest)) : cs = raw ++ stop :: rest := by
  induction cs using cut.induct stop generalizing raw with
  | case1 => cases h
  | case2 l cs ih =>
    rw [cut_escaped] at h
    obtain ⟨⟨before, after⟩, hcut, heq⟩ := Option.map_eq_some_iff.mp h
    cases heq
    rw [ih hcut]
    rfl
  | case3 cs hnot =>
    rw [cut, if_pos rfl] at h
    · cases h
      rfl
    · exact hnot
  | case4 c cs hnot hstop ih =>
    rw [cut, if_neg hstop] at h
    · obtain ⟨⟨before, after⟩, hcut, heq⟩ := Option.map_eq_some_iff.mp h
      cases heq
      rw [ih hcut]
      rfl
    · exact hnot

/-- More text after the delimiter changes nothing. -/
theorem cut_append (hne : stop ≠ '\\') (h : cut stop cs = some (raw, rest)) (more : List Char) :
    cut stop (cs ++ more) = some (raw, rest ++ more) := by
  induction cs using cut.induct stop generalizing raw with
  | case1 => cases h
  | case2 l cs ih =>
    rw [cut_escaped] at h
    obtain ⟨⟨before, after⟩, hcut, heq⟩ := Option.map_eq_some_iff.mp h
    cases heq
    rw [List.cons_append, List.cons_append, cut_escaped, ih hcut]
    rfl
  | case3 cs hnot =>
    rw [cut_stop hne] at h
    cases h
    rw [List.cons_append, cut_stop hne]
  | case4 c cs hnot hstop ih =>
    rw [cut, if_neg hstop] at h
    · obtain ⟨⟨before, after⟩, hcut, heq⟩ := Option.map_eq_some_iff.mp h
      cases heq
      have hslash : c ≠ '\\' := by
        intro hslash
        cases cs with
        | nil => cases hcut
        | cons l cs => exact hnot l cs hslash rfl
      rw [List.cons_append, cut_plain hslash hstop, ih hcut]
      rfl
    · exact hnot

theorem read_append {field : List Char} (hne : stop ≠ '\\') (h : x.read stop cs = some (field, rest)) (more : List Char) :
    x.read stop (cs ++ more) = some (field, rest ++ more) := by
  simp only [read, Option.bind_eq_bind, Option.bind_eq_some_iff, Prod.exists] at h ⊢
  obtain ⟨raw, after, hcut, u, hu, heq⟩ := h
  cases heq
  exact ⟨raw, rest ++ more, cut_append hne hcut more, field, hu, rfl⟩

/-- No field is longer than what was read for it. -/
theorem length_read {field : List Char} (h : x.read stop cs = some (field, rest)) :
    field.length + 1 + rest.length ≤ cs.length := by
  simp only [read, Option.bind_eq_bind, Option.bind_eq_some_iff, Prod.exists] at h
  obtain ⟨raw, after, hcut, u, hu, heq⟩ := h
  cases heq
  have hraw := length_unescape hu
  rw [cut_eq_some hcut, List.length_append, List.length_cons]
  omega

theorem slashes_cons (k : Nat) (cs : List Char) :
    List.replicate k '\\' ++ '\\' :: cs = '\\' :: (List.replicate k '\\' ++ cs) := by
  induction k with
  | zero => rfl
  | succ k ih => rw [List.replicate_succ, List.cons_append, ih, List.cons_append]

/-- Only a backslash after a backslash is read as one. -/
theorem unescape_escaped_eq_slash (h : x.unescape ('\\' :: l :: raw) = some ('\\' :: v)) :
    l = '\\' ∧ x.unescape raw = some v := by
  rw [unescape_escaped] at h
  obtain ⟨c, hc, hrest⟩ := Option.bind_eq_some_iff.mp h
  obtain ⟨u, hu, heq⟩ := Option.map_eq_some_iff.mp hrest
  cases heq
  exact ⟨char_eq_slash hc, hu⟩

/-- If what is read of a text that was written as it is is what was meant, nothing in it was special. The
`k` backslashes are those that the reader is behind. -/
theorem plain_of_cut (hne : stop ≠ '\\') (k : Nat) (h : cut stop (v ++ stop :: cs) = some (raw, rest))
    (hraw : x.unescape raw = some (List.replicate k '\\' ++ v)) : k = 0 ∧ ∀ c ∈ v, c ≠ '\\' ∧ c ≠ stop := by
  induction v using cut.induct stop generalizing k raw with
  | case1 =>
    rw [List.nil_append, cut_stop hne] at h
    cases h
    simp only [unescape, List.append_nil, Option.some.injEq] at hraw
    refine ⟨?_, by simp⟩
    simpa using hraw.symm
  | case2 l v ih =>
    rw [List.cons_append, List.cons_append, cut_escaped] at h
    obtain ⟨⟨before, after⟩, hcut, heq⟩ := Option.map_eq_some_iff.mp h
    cases heq
    rw [slashes_cons] at hraw
    obtain ⟨rfl, hbefore⟩ := unescape_escaped_eq_slash hraw
    rw [slashes_cons, ← List.cons_append, ← List.replicate_succ] at hbefore
    exact absurd (ih (k + 1) hcut hbefore).1 (Nat.succ_ne_zero k)
  | case3 v hnot =>
    rw [List.cons_append, cut_stop hne] at h
    cases h
    have hnil := congrArg List.length (Option.some.inj hraw)
    simp at hnil
  | case4 c v hnot hstop ih =>
    by_cases hslash : c = '\\'
    · -- A backslash at the end takes the delimiter for its letter.
      obtain rfl : v = [] := by
        cases v with
        | nil => rfl
        | cons l v => exact absurd rfl (hnot l v hslash)
      rw [hslash, List.singleton_append, cut_escaped] at h
      obtain ⟨⟨before, after⟩, hcut, heq⟩ := Option.map_eq_some_iff.mp h
      cases heq
      rw [hslash, slashes_cons] at hraw
      exact absurd (unescape_escaped_eq_slash hraw).1 hne
    · rw [List.cons_append, cut_plain hslash hstop] at h
      obtain ⟨⟨before, after⟩, hcut, heq⟩ := Option.map_eq_some_iff.mp h
      cases heq
      rw [unescape_plain hslash] at hraw
      obtain ⟨u, hu, heq⟩ := Option.map_eq_some_iff.mp hraw
      cases k with
      | zero =>
        obtain rfl : u = v := by simpa using heq
        obtain ⟨-, hv⟩ := ih 0 hcut (by simpa using hu)
        exact ⟨rfl, List.forall_mem_cons.mpr ⟨⟨hslash, hstop⟩, hv⟩⟩
      | succ k =>
        rw [List.replicate_succ, List.cons_append] at heq
        exact absurd (List.cons.inj heq).1 hslash

/-- A text between delimiters is read back as it was written just when nothing in it is special. -/
theorem read_eq_some_iff (hne : stop ≠ '\\') (v cs : List Char) :
    (∃ rest, x.read stop (v ++ stop :: cs) = some (v, rest)) ↔ ∀ c ∈ v, c ≠ '\\' ∧ c ≠ stop := by
  constructor
  · rintro ⟨rest, h⟩
    simp only [read, Option.bind_eq_bind, Option.bind_eq_some_iff, Prod.exists] at h
    obtain ⟨raw, after, hcut, field, hfield, heq⟩ := h
    cases heq
    exact (plain_of_cut hne 0 hcut (by simpa using hfield)).2
  · intro h
    exact ⟨cs, read_plain hne h cs⟩

end Escapes

end Occp.Lib
