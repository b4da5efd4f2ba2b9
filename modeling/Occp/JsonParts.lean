import Occp.JsonTokens
import Occp.PyEq

/-!
# Objects inside a written value

Where a text that `json.dumps` writes has a brace and a key behind it, it has the text of one of the value's parts.
-/

namespace Occp.Json

open Lib.Regex (trail intercalate_cons_eq)

/-- The value, or one that a list or a dictionary in it holds. -/
inductive Part (w : Value) : Value → Prop
  | refl : Part w w
  | item {items : List Value} {v : Value} (hv : v ∈ items) (h : Part w v) : Part w (.list items)
  | entry {entries : List (String × Value)} {e : String × Value} (he : e ∈ entries) (h : Part w e.2) : Part w (.dict entries)

variable {F : Floats} {v w : Value}

theorem Part.readable (h : Part w v) (hv : Readable F v) : Readable F w := by
  induction h with
  | refl => exact hv
  | item hmem h ih =>
    cases hv with
    | list hitems => exact ih (hitems _ hmem)
  | entry hmem h ih =>
    cases hv with
    | dict hkeys hentries => exact ih (hentries _ hmem)

theorem sizeOf_item {items : List Value} (h : v ∈ items) : sizeOf v < sizeOf (Value.list items) := by
  have hlt := List.sizeOf_lt_of_mem h
  rw [Value.list.sizeOf_spec]
  omega

theorem sizeOf_entry {entries : List (String × Value)} {e : String × Value} (h : e ∈ entries) :
    sizeOf e.2 < sizeOf (Value.dict entries) := by
  have hlt := List.sizeOf_lt_of_mem h
  have hsnd : sizeOf e.2 < sizeOf e := by
    cases e
    simp
  rw [Value.dict.sizeOf_spec]
  omega

theorem Part.sizeOf_le (h : Part w v) : sizeOf w ≤ sizeOf v := by
  induction h with
  | refl => exact le_rfl
  | item hmem h ih => exact ih.trans (sizeOf_item hmem).le
  | entry hmem h ih => exact ih.trans (sizeOf_entry hmem).le

/-! ## Places in a text -/

section Places

variable {α : Type} {u u' x y : List α} {c : α}

/-- A character of two texts is one of the first or of the second. -/
theorem place_cases (h : u ++ u' = x ++ c :: y) :
    (∃ r, u = x ++ c :: r ∧ y = r ++ u') ∨ ∃ x', x = u ++ x' ∧ u' = x' ++ c :: y := by
  rcases List.append_eq_append_iff.mp h with ⟨x', hx, hu'⟩ | ⟨r, hu, hy⟩
  · exact .inr ⟨x', hx, hu'⟩
  · cases r with
    | nil => exact .inr ⟨[], by simpa using hu.symm, by simpa using hy.symm⟩
    | cons d r =>
      obtain ⟨rfl, rfl⟩ := List.cons.inj hy
      exact .inl ⟨r, hu, rfl⟩

/-- A character of a join is one of a text, if it is none of the separator. -/
theorem place_intercalate {sep : List α} {texts : List (List α)} (hc : c ∉ sep) (h : sep.intercalate texts = x ++ c :: y) :
    ∃ text ∈ texts, ∃ after x' r, text = x' ++ c :: r ∧ y = r ++ trail sep after := by
  cases texts with
  | nil => simp at h
  | cons text texts =>
    rw [intercalate_cons_eq] at h
    induction texts generalizing text x with
    | nil =>
      refine ⟨text, List.mem_cons_self, [], x, y, ?_, by simp [trail]⟩
      rw [← h]
      simp [trail]
    | cons text' texts ih =>
      rcases place_cases h with ⟨r, htext, hy⟩ | ⟨x', -, htrail⟩
      · exact ⟨text, List.mem_cons_self, text' :: texts, x, r, htext, hy⟩
      · have hsplit : sep ++ (text' ++ trail sep texts) = x' ++ c :: y := by rw [← htrail]; simp [trail]
        rcases place_cases hsplit with ⟨r, hsep, -⟩ | ⟨x'', -, hrest⟩
        · exact absurd (hsep ▸ List.mem_append_right x' List.mem_cons_self) hc
        · obtain ⟨found, hfound, hplace⟩ := ih text' hrest
          exact ⟨found, List.mem_cons_of_mem text hfound, hplace⟩

end Places

/-! ## Strings -/

theorem StringBody.of_brace {body x r : List Char} (h : StringBody body) (heq : body = x ++ '\x7b' :: r) : StringBody r := by
  induction h generalizing x with
  | close =>
    cases x with
    | nil => cases heq
    | cons d x => cases x <;> cases heq
  | @plain c body hquote hslash h ih =>
    cases x with
    | nil =>
      cases heq
      exact h
    | cons d x => exact ih (List.cons.inj heq).2
  | @escape l body h ih =>
    cases x with
    | nil => cases heq
    | cons d x =>
      cases x with
      | nil =>
        cases heq
        exact h
      | cons e x => exact ih (List.cons.inj (List.cons.inj heq).2).2

/-- The first quote behind plain characters ends the string. -/
theorem StringBody.closed_by {body more s rest : List Char} (h : StringBody body) (heq : body ++ more = s ++ '"' :: rest)
    (hs : ∀ c ∈ s, c ≠ '"' ∧ c ≠ '\\') : more = rest := by
  induction h generalizing s with
  | close =>
    cases s with
    | nil => exact (List.cons.inj heq).2
    | cons d s => exact absurd (List.cons.inj heq).1.symm (hs d List.mem_cons_self).1
  | @plain c body hquote hslash h ih =>
    cases s with
    | nil => exact absurd (List.cons.inj heq).1 hquote
    | cons d s => exact ih (List.cons.inj heq).2 fun e he => hs e (List.mem_cons_of_mem d he)
  | @escape l body h ih =>
    cases s with
    | nil => exact absurd (List.cons.inj heq).1 (by decide)
    | cons d s => exact absurd (List.cons.inj heq).1.symm (hs d List.mem_cons_self).2

/-- A brace in a string has no key behind it. -/
theorem brace_in_string {x r more gap y : List Char} {text : String} (hplace : dumpsString text = x ++ '\x7b' :: r)
    (hgap : ∀ c ∈ gap, c ≠ '"' ∧ c ≠ '\\') (hkey : r ++ more = gap ++ '"' :: y) : more = y := by
  cases x with
  | nil => cases hplace
  | cons d x =>
    have hbody := (quoted_dumpsString text).body.of_brace (List.cons.inj hplace).2
    exact hbody.closed_by hkey hgap

/-! ## Objects -/

theorem head_trail_ne {sep : Char} (after : List (List Char)) (close : Char) (more : List Char) {c : Char} (hsep : c ≠ sep)
    (hclose : c ≠ close) : (trail [sep, ' '] after ++ close :: more).head? ≠ some c := by
  cases after with
  | nil => simpa [trail] using hclose.symm
  | cons text after => simpa [trail] using hsep.symm

/-- A brace with a key behind it that starts with this letter starts the text of a part. -/
theorem part_of_brace {v : Value} (hv : Readable F v) {x r more gap y : List Char} {letter : Char} (hcomma : letter ≠ ',')
    (hbracket : letter ≠ ']') (hbrace : letter ≠ '\x7d') (hcolon : letter ≠ ':') (hplace : dumps F.text v = x ++ '\x7b' :: r)
    (hgap : ∀ c ∈ gap, c ≠ '"' ∧ c ≠ '\\') (hkey : r ++ more = gap ++ '"' :: letter :: y) (hmore : more.head? ≠ some letter) :
    ∃ w rest, Part w v ∧ '\x7b' :: (r ++ more) = dumps F.text w ++ rest := by
  have hnone {text : List Char} (hno : '\x7b' ∉ text) {x r : List Char} : text ≠ x ++ '\x7b' :: r := by
    rintro rfl
    exact hno (List.mem_append_right x List.mem_cons_self)
  have hnumeral {w : Value} {text : List Char} (hcounted : Counted F w text) {x r : List Char} : text ≠ x ++ '\x7b' :: r := by
    refine hnone fun hmem => ?_
    exact absurd (hcounted.chars _ hmem) (by decide)
  have hclose {c : Char} (hc : c ≠ '\x7b') {x r : List Char} : [c] ≠ x ++ '\x7b' :: r := by
    refine hnone ?_
    simpa using hc.symm
  induction hv generalizing x r more with
  | none => exact absurd hplace (hnone (by rw [dumps]; decide))
  | bool b => cases b <;> exact absurd hplace (hnone (by rw [dumps]; decide))
  | int n => exact absurd hplace (hnumeral (reads_integer n))
  | float h => exact absurd hplace (hnumeral (reads_float h))
  | str s =>
    rw [brace_in_string hplace hgap hkey] at hmore
    exact absurd rfl hmore
  | @list items h ih =>
    cases x with
    | nil => cases hplace
    | cons d x =>
      rw [dumps, List.cons_append, List.cons_append, dumpsItems_eq] at hplace
      rcases place_cases (List.cons.inj hplace).2 with ⟨r', hitems, rfl⟩ | ⟨x', -, hlast⟩
      · obtain ⟨text, htext, after, x', r, heq, rfl⟩ := place_intercalate (by decide) hitems
        obtain ⟨v, hv, rfl⟩ := List.mem_map.mp htext
        have hmore' := head_trail_ne after ']' more hcomma hbracket
        obtain ⟨w, rest, hpart, hrest⟩ := ih v hv heq (by simpa using hkey) hmore'
        exact ⟨w, rest, .item hv hpart, by simpa using hrest⟩
      · exact absurd hlast (hclose (by decide))
  | @dict entries hkeys h ih =>
    cases x with
    | nil =>
      refine ⟨.dict entries, more, .refl, ?_⟩
      rw [hplace]
      rfl
    | cons d x =>
      rw [dumps, List.cons_append, List.cons_append, dumpsEntries_eq] at hplace
      rcases place_cases (List.cons.inj hplace).2 with ⟨r', hentries, rfl⟩ | ⟨x', -, hlast⟩
      · obtain ⟨text, htext, after, x', r, heq, rfl⟩ := place_intercalate (by decide) hentries
        obtain ⟨e, he, rfl⟩ := List.mem_map.mp htext
        have hmore' := head_trail_ne after '\x7d' more hcomma hbrace
        rcases place_cases heq with ⟨r', hkeyText, rfl⟩ | ⟨x'', -, hvalue⟩
        · -- The brace is in the key.
          have hkey' : r' ++ (':' :: ' ' :: dumps F.text e.2 ++ (trail [',', ' '] after ++ '\x7d' :: more)) =
              gap ++ '"' :: letter :: y := by simpa using hkey
          have hfollow := brace_in_string hkeyText hgap hkey'
          exact absurd (List.cons.inj hfollow).1.symm hcolon
        · cases x'' with
          | nil => cases hvalue
          | cons c x'' =>
            cases x'' with
            | nil => cases hvalue
            | cons c' x'' =>
              have hdumps := (List.cons.inj (List.cons.inj hvalue).2).2
              obtain ⟨w, rest, hpart, hrest⟩ := ih e he hdumps (by simpa using hkey) hmore'
              exact ⟨w, rest, .entry he hpart, by simpa using hrest⟩
      · exact absurd hlast (hclose (by decide))

end Occp.Json
