import Occp.JsonLayouts

/-!
# Inside and outside of strings

A JSON text is read with a mode. Outside strings it has the characters of tokens only, so what starts inside a string of
a JSON text is no JSON text, unless all of it looks like tokens.
-/

namespace Occp.Json

open Lib.Sequences

inductive Mode where
  | outside
  | inside
  /-- Behind a backslash. -/
  | escaped
  deriving DecidableEq

namespace Mode

def next : Mode → Char → Mode
  | outside, c => if c = '"' then inside else outside
  | inside, c => if c = '"' then outside else if c = '\\' then escaped else inside
  | escaped, _ => inside

def after (m : Mode) (w : List Char) : Mode := w.foldl next m

@[simp] theorem after_nil (m : Mode) : m.after [] = m := rfl

@[simp] theorem after_cons (m : Mode) (c : Char) (w : List Char) : m.after (c :: w) = (m.next c).after w := rfl

theorem after_append (m : Mode) (u v : List Char) : m.after (u ++ v) = (m.after u).after v := List.foldl_append

/-- A string goes on up to a quote or a backslash. -/
theorem after_inside {w : List Char} (h : ∀ c ∈ w, c ≠ '"' ∧ c ≠ '\\') : inside.after w = inside := by
  induction w with
  | nil => rfl
  | cons c w ih =>
    obtain ⟨⟨hquote, hslash⟩, hw⟩ := List.forall_mem_cons.mp h
    rw [after_cons, next, if_neg hquote, if_neg hslash, ih hw]

end Mode

/-- A character of a bracket, a comma, a colon, a quote, a blank, a numeral or a literal. -/
def isToken (c : Char) : Bool :=
  isBlank c || Lib.Numerals.isNumeralChar c || "\x7b\x7d[],:\"nulltruefalse".toList.contains c

/-- Outside strings there are characters of tokens only. -/
def TokensOutside : Mode → List Char → Prop
  | _, [] => True
  | m, c :: w => (m = .outside → isToken c = true) ∧ TokensOutside (m.next c) w

theorem tokensOutside_append {m : Mode} {u v : List Char} :
    TokensOutside m (u ++ v) ↔ TokensOutside m u ∧ TokensOutside (m.after u) v := by
  induction u generalizing m with
  | nil => simp [TokensOutside]
  | cons c u ih => simp only [List.cons_append, TokensOutside, ih, Mode.after_cons, and_assoc]

/-- The modes of two readings that start on different sides of a quote stay different. -/
theorem isToken_of_opposite {w : List Char} (h : TokensOutside .outside w) (h' : TokensOutside .inside w) :
    ∀ c ∈ w, isToken c = true := by
  induction w with
  | nil => exact List.forall_mem_nil _
  | cons c w ih =>
    obtain ⟨hc, hw⟩ := h
    obtain ⟨-, hw'⟩ := h'
    have htoken := hc rfl
    refine List.forall_mem_cons.mpr ⟨htoken, ?_⟩
    by_cases hquote : c = '"'
    · subst hquote
      exact ih hw' hw
    · have hslash : c ≠ '\\' := by
        rintro rfl
        exact absurd htoken (by decide)
      rw [Mode.next, if_neg hquote] at hw
      rw [Mode.next, if_neg hquote, if_neg hslash] at hw'
      exact ih hw hw'

/-! ## JSON texts -/

/-- A text whose strings are closed. -/
structure Lexed (w : List Char) : Prop where
  tokens : TokensOutside .outside w
  closed : Mode.outside.after w = .outside

theorem Lexed.append {u v : List Char} (hu : Lexed u) (hv : Lexed v) : Lexed (u ++ v) :=
  ⟨tokensOutside_append.mpr ⟨hu.tokens, hu.closed.symm ▸ hv.tokens⟩, by rw [Mode.after_append, hu.closed, hv.closed]⟩

theorem lexed_nil : Lexed [] := ⟨trivial, rfl⟩

theorem lexed_cons {c : Char} (hc : isToken c = true ∧ c ≠ '"') {w : List Char} (h : Lexed w) : Lexed (c :: w) := by
  have hnext : Mode.outside.next c = .outside := if_neg hc.2
  exact ⟨⟨fun _ => hc.1, hnext.symm ▸ h.tokens⟩, by rw [Mode.after_cons, hnext, h.closed]⟩

theorem lexed_of_forall {w : List Char} (h : ∀ c ∈ w, isToken c = true ∧ c ≠ '"') : Lexed w := by
  induction w with
  | nil => exact lexed_nil
  | cons c w ih =>
    obtain ⟨hc, hw⟩ := List.forall_mem_cons.mp h
    exact lexed_cons hc (ih hw)

theorem lexed_of_all {w : List Char} (h : (w.all fun c => isToken c && c != '"') = true) : Lexed w :=
  lexed_of_forall fun c hc => by simpa using List.all_eq_true.mp h c hc

theorem lexed_of_blank {w : List Char} (h : ∀ c ∈ w, isBlank c = true) : Lexed w := by
  refine lexed_of_forall fun c hc => ?_
  have hblank := h c hc
  refine ⟨by simp [isToken, hblank], ?_⟩
  rintro rfl
  exact absurd hblank (by decide)

theorem lexed_of_numeral {w : List Char} (h : ∀ c ∈ w, Lib.Numerals.isNumeralChar c = true) : Lexed w := by
  refine lexed_of_forall fun c hc => ?_
  have hnumeral := h c hc
  refine ⟨by simp [isToken, hnumeral], ?_⟩
  rintro rfl
  exact absurd hnumeral (by decide)

theorem StringBody.lexed {w : List Char} (h : StringBody w) : Lexed ('"' :: w) := by
  have hbody : TokensOutside .inside w ∧ Mode.inside.after w = .outside := by
    induction h with
    | close => exact ⟨⟨nofun, trivial⟩, rfl⟩
    | @plain c w hquote hslash h ih =>
      have hnext : Mode.inside.next c = .inside := by rw [Mode.next, if_neg hquote, if_neg hslash]
      exact ⟨⟨nofun, hnext.symm ▸ ih.1⟩, by rw [Mode.after_cons, hnext, ih.2]⟩
    | @escape l w h ih => exact ⟨⟨nofun, nofun, ih.1⟩, ih.2⟩
  exact ⟨⟨fun _ => by decide, hbody.1⟩, hbody.2⟩

theorem lexed_sequenceText {α : Type} {parts : List (Part Char α)} (hpadded : ∀ p ∈ parts, p.Padded isBlank)
    (h : ∀ p ∈ parts, Lexed p.text) : Lexed (sequenceText ',' parts) := by
  induction parts with
  | nil => exact lexed_nil
  | cons p parts ih =>
    obtain ⟨hp, hparts⟩ := List.forall_mem_cons.mp hpadded
    obtain ⟨htext, htexts⟩ := List.forall_mem_cons.mp h
    have hchars : Lexed p.chars := ((lexed_of_blank hp.before).append htext).append (lexed_of_blank hp.after)
    cases parts with
    | nil =>
      rw [sequenceText_singleton]
      exact hchars
    | cons q parts =>
      rw [sequenceText_cons ',' p (List.cons_ne_nil q parts)]
      exact hchars.append (lexed_cons (by decide) (ih hparts htexts))

variable {F : Floats}

theorem Spells.lexed {v : Value} {w : List Char} (h : Spells F v w) : Lexed w := by
  induction h with
  | literal h =>
    simp only [literals, List.mem_cons, List.not_mem_nil, or_false, Prod.mk.injEq] at h
    rcases h with ⟨rfl, -⟩ | ⟨rfl, -⟩ | ⟨rfl, -⟩ <;> exact lexed_of_all (by decide)
  | number h => exact lexed_of_numeral h.chars
  | str h => exact h.body.lexed
  | emptyList hgap => exact lexed_cons (by decide) ((lexed_of_blank hgap).append (lexed_of_all (by decide)))
  | list hne hpadded h ih =>
    exact lexed_cons (by decide) ((lexed_sequenceText hpadded ih).append (lexed_of_all (by decide)))
  | emptyDict hgap => exact lexed_cons (by decide) ((lexed_of_blank hgap).append (lexed_of_all (by decide)))
  | @dict members hne hwritten h ih =>
    have htext : ∀ p ∈ members.map Member.part, Lexed p.text := by
      refine List.forall_mem_map.mpr fun m hm => ?_
      have hm' := hwritten m hm
      exact ((hm'.key.body.lexed.append (lexed_of_blank hm'.beforeColon)).append
        (lexed_cons (by decide) (lexed_of_blank hm'.afterColon))).append (ih m hm)
    exact lexed_cons (by decide) ((lexed_sequenceText (List.forall_mem_map.mpr fun m hm => (hwritten m hm).padded) htext).append
      (lexed_of_all (by decide)))

/-- Two objects at one place are one. -/
theorem Spells.object_unique {v v' : Value} {w w' rest rest' : List Char} (h : Spells F v ('\x7b' :: w))
    (h' : Spells F v' ('\x7b' :: w')) (heq : '\x7b' :: w ++ rest = '\x7b' :: w' ++ rest') : v = v' ∧ w = w' := by
  have hread := h.readValue_object (n := max ('\x7b' :: w).length ('\x7b' :: w').length) (Nat.le_max_left _ _) rest
  have hread' := h'.readValue_object (n := max ('\x7b' :: w).length ('\x7b' :: w').length) (Nat.le_max_right _ _) rest'
  rw [heq, hread'] at hread
  cases hread
  exact ⟨rfl, (List.cons.inj (List.append_cancel_right heq)).2⟩

theorem Spells.dict_of_brace {v : Value} {w : List Char} (h : Spells F v ('\x7b' :: w)) : ∃ entries, v = .dict entries := by
  obtain ⟨text, htext⟩ : ∃ text, text = '\x7b' :: w := ⟨_, rfl⟩
  rw [← htext] at h
  cases h with
  | literal h =>
    simp only [literals, List.mem_cons, List.not_mem_nil, or_false, Prod.mk.injEq] at h
    rcases h with ⟨rfl, -⟩ | ⟨rfl, -⟩ | ⟨rfl, -⟩ <;> cases htext
  | number h =>
    obtain ⟨c, rest, hw, hc⟩ := h.head
    rw [hw] at htext
    cases htext
    exact absurd hc (by decide)
  | emptyDict => exact ⟨_, rfl⟩
  | dict => exact ⟨_, rfl⟩
  | _ => cases htext

end Occp.Json
