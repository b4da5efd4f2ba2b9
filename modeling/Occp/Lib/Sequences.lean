import Mathlib.Data.List.TakeWhile
import Mathlib.Tactic.Common

/-!
# Sequences in brackets

Items with a separator between them and a bracket behind the last, and blanks around each. What reads one item makes a
reader of all.
-/

namespace Occp.Lib.Sequences

variable {τ α : Type}

/-- An item in a text, with the blanks around it. -/
structure Part (τ α : Type) where
  before : List τ
  value : α
  text : List τ
  after : List τ

namespace Part

def chars (p : Part τ α) : List τ := p.before ++ p.text ++ p.after

/-- Only blanks are around the item, and it does not start with one. -/
structure Padded (blank : τ → Bool) (p : Part τ α) : Prop where
  before : ∀ c ∈ p.before, blank c = true
  after : ∀ c ∈ p.after, blank c = true
  text : ∀ c ∈ p.text.head?, blank c = false

end Part

def sequenceText (sep : τ) (parts : List (Part τ α)) : List τ := [sep].intercalate (parts.map Part.chars)

theorem sequenceText_singleton (sep : τ) (p : Part τ α) : sequenceText sep [p] = p.chars := by simp [sequenceText]

theorem sequenceText_cons (sep : τ) (p : Part τ α) {parts : List (Part τ α)} (hne : parts ≠ []) :
    sequenceText sep (p :: parts) = p.chars ++ sep :: sequenceText sep parts := by
  obtain ⟨q, parts, rfl⟩ := List.exists_cons_of_ne_nil hne
  simp [sequenceText]

/-- Items that are written with the same gap behind each separator. -/
def pad (before gap closing : List τ) : List (α × List τ) → List (Part τ α)
  | [] => []
  | [e] => [⟨before, e.1, e.2, closing⟩]
  | e :: e' :: items => ⟨before, e.1, e.2, []⟩ :: pad gap gap closing (e' :: items)

theorem pad_ne_nil (before gap closing : List τ) {items : List (α × List τ)} (hne : items ≠ []) :
    pad before gap closing items ≠ [] := by
  cases items with
  | nil => exact absurd rfl hne
  | cons e items => cases items <;> exact List.cons_ne_nil _ _

theorem sequenceText_pad (sep : τ) (before gap closing : List τ) {items : List (α × List τ)} (hne : items ≠ []) :
    sequenceText sep (pad before gap closing items) =
      before ++ (sep :: gap).intercalate (items.map Prod.snd) ++ closing := by
  induction items generalizing before with
  | nil => exact absurd rfl hne
  | cons e items ih =>
    cases items with
    | nil => simp [pad, sequenceText_singleton, Part.chars]
    | cons e' items =>
      have hrest := pad_ne_nil gap gap closing (List.cons_ne_nil e' items)
      rw [pad, sequenceText_cons sep _ hrest, ih gap (List.cons_ne_nil e' items)]
      simp [Part.chars, List.append_assoc]

theorem pad_values (before gap closing : List τ) (items : List (α × List τ)) :
    (pad before gap closing items).map Part.value = items.map Prod.fst := by
  induction items generalizing before with
  | nil => rfl
  | cons e items ih =>
    cases items with
    | nil => rfl
    | cons e' items =>
      rw [pad, List.map_cons, ih gap]
      rfl

theorem mem_pad {blank : τ → Bool} {before gap closing : List τ} (hbefore : ∀ c ∈ before, blank c = true)
    (hgap : ∀ c ∈ gap, blank c = true) (hclosing : ∀ c ∈ closing, blank c = true) {items : List (α × List τ)}
    (htext : ∀ e ∈ items, ∀ c ∈ e.2.head?, blank c = false) {p : Part τ α} (hp : p ∈ pad before gap closing items) :
    (p.value, p.text) ∈ items ∧ p.Padded blank := by
  induction items generalizing before with
  | nil => cases hp
  | cons e items ih =>
    have hhead := htext e List.mem_cons_self
    cases items with
    | nil =>
      rw [List.mem_singleton.mp hp]
      exact ⟨List.mem_cons_self, hbefore, hclosing, hhead⟩
    | cons e' items =>
      rcases List.mem_cons.mp hp with rfl | hp
      · exact ⟨List.mem_cons_self, hbefore, nofun, hhead⟩
      · obtain ⟨hmem, hpadded⟩ := ih hgap (fun f hf => htext f (List.mem_cons_of_mem e hf)) hp
        exact ⟨List.mem_cons_of_mem e hmem, hpadded⟩

def skip (blank : τ → Bool) (cs : List τ) : List τ := cs.dropWhile blank

variable {blank : τ → Bool}

theorem skip_split (blank : τ → Bool) (cs : List τ) : ∃ gap, cs = gap ++ skip blank cs ∧ ∀ c ∈ gap, blank c = true :=
  ⟨cs.takeWhile blank, List.takeWhile_append_dropWhile.symm, fun _ hc => List.mem_takeWhile_imp hc⟩

theorem skip_head (cs : List τ) : ∀ c ∈ (skip blank cs).head?, blank c = false := by
  intro c hc
  have hnot := List.head?_dropWhile_not blank cs
  unfold skip at hc
  rw [Option.mem_def.mp hc] at hnot
  simpa using hnot

theorem skip_append {gap cs : List τ} (hgap : ∀ c ∈ gap, blank c = true) (hcs : ∀ c ∈ cs.head?, blank c = false) :
    skip blank (gap ++ cs) = cs := by
  rw [skip, List.dropWhile_append_of_pos hgap]
  cases cs with
  | nil => rfl
  | cons c cs => exact List.dropWhile_cons_of_neg (by simp [hcs c rfl])

theorem skip_cons {c : τ} (hc : blank c = false) (cs : List τ) : skip blank (c :: cs) = c :: cs := by
  have hnil : ∀ d ∈ ([] : List τ), blank d = true := nofun
  exact skip_append hnil fun d hd => by cases hd; exact hc

/-- Behind the blanks a sequence starts with its first item. -/
theorem skip_sequenceText (sep : τ) {parts : List (Part τ α)} (hne : parts ≠ []) (hpadded : ∀ p ∈ parts, p.Padded blank)
    (htext : ∀ p ∈ parts, p.text ≠ []) (rest : List τ) :
    ∃ p ∈ parts, ∃ tail, skip blank (sequenceText sep parts ++ rest) = p.text ++ tail := by
  obtain ⟨p, parts, rfl⟩ := List.exists_cons_of_ne_nil hne
  have hpad := hpadded p List.mem_cons_self
  obtain ⟨d, w, hw⟩ := List.exists_cons_of_ne_nil (htext p List.mem_cons_self)
  have hskip (tail : List τ) : skip blank (p.chars ++ tail) = p.text ++ (p.after ++ tail) := by
    rw [Part.chars, List.append_assoc, List.append_assoc]
    refine skip_append hpad.before fun e he => hpad.text e ?_
    rw [hw] at he ⊢
    exact he
  refine ⟨p, List.mem_cons_self, ?_⟩
  cases parts with
  | nil => exact ⟨_, by rw [sequenceText_singleton, hskip]⟩
  | cons q parts => exact ⟨_, by rw [sequenceText_cons sep p (List.cons_ne_nil q parts), List.append_assoc, hskip]⟩

theorem length_text_le (sep : τ) {parts : List (Part τ α)} {p : Part τ α} (hp : p ∈ parts) :
    p.text.length ≤ (sequenceText sep parts).length := by
  induction parts with
  | nil => cases hp
  | cons q parts ih =>
    have hchars : q.text.length ≤ q.chars.length := by
      simp only [Part.chars, List.length_append]
      omega
    cases parts with
    | nil =>
      rw [List.mem_singleton.mp hp, sequenceText_singleton]
      exact hchars
    | cons r parts =>
      rw [sequenceText_cons sep q (List.cons_ne_nil r parts), List.length_append, List.length_cons]
      rcases List.mem_cons.mp hp with rfl | hp
      · omega
      · have hrest := ih hp
        omega

theorem length_le_sequenceText (sep : τ) (parts : List (Part τ α)) : parts.length ≤ (sequenceText sep parts).length + 1 := by
  induction parts with
  | nil => simp
  | cons p parts ih =>
    cases parts with
    | nil => simp
    | cons q parts =>
      rw [sequenceText_cons sep p (List.cons_ne_nil q parts)]
      simp only [List.length_append, List.length_cons] at ih ⊢
      omega

variable [DecidableEq τ] (blank)

/-- The items up to the closing bracket, at most `n` of them, and the text behind it. -/
def readSequence (item : List τ → Option (α × List τ)) (sep close : τ) : (n : Nat) → List τ → Option (List α × List τ)
  | 0, _ => none
  | n + 1, cs =>
    (item (skip blank cs)).bind fun p =>
      match skip blank p.2 with
      | [] => none
      | c :: rest =>
        if c = sep then (readSequence item sep close n rest).map fun q => (p.1 :: q.1, q.2)
        else if c = close then some ([p.1], rest)
        else none

variable {blank} {item : List τ → Option (α × List τ)} {sep close : τ}

/-- What is read is a sequence of items that are each read. -/
theorem readSequence_sound {P : α → List τ → Prop}
    (hitem : ∀ cs a rest, item cs = some (a, rest) → ∃ w, cs = w ++ rest ∧ w ≠ [] ∧ P a w) {n : Nat} {cs rest : List τ}
    {as : List α} (h : readSequence blank item sep close n cs = some (as, rest)) :
    ∃ parts, parts ≠ [] ∧ parts.map Part.value = as ∧ cs = sequenceText sep parts ++ close :: rest ∧
      ∀ p ∈ parts, P p.value p.text ∧ p.Padded blank := by
  induction n generalizing cs as with
  | zero => cases h
  | succ n ih =>
    obtain ⟨⟨a, next⟩, hread, h⟩ := Option.bind_eq_some_iff.mp h
    obtain ⟨before, hbefore, hblank⟩ := skip_split blank cs
    obtain ⟨after, hafter, hblank'⟩ := skip_split blank next
    obtain ⟨w, hw, hne, hP⟩ := hitem _ _ _ hread
    have hpadded : (Part.mk before a w after).Padded blank := by
      refine ⟨hblank, hblank', fun c hc => ?_⟩
      obtain ⟨d, w, rfl⟩ := List.exists_cons_of_ne_nil hne
      exact skip_head cs c (by rw [hw]; exact hc)
    have htext : cs = (Part.mk before a w after).chars ++ skip blank next := by
      conv_lhs => rw [hbefore, hw, hafter]
      simp only [Part.chars, List.append_assoc]
    dsimp only at h
    split at h
    · cases h
    · next c tail hskip =>
      rw [hskip] at htext
      split at h
      · next hsep =>
        obtain ⟨⟨as', rest'⟩, hmore, heq⟩ := Option.map_eq_some_iff.mp h
        cases heq
        obtain ⟨parts, hne', hvalues, hsplit, hall⟩ := ih hmore
        refine ⟨⟨before, a, w, after⟩ :: parts, List.cons_ne_nil _ _, ?_, ?_, ?_⟩
        · rw [List.map_cons, hvalues]
        · rw [sequenceText_cons _ _ hne', List.append_assoc, List.cons_append, ← hsplit, ← hsep]
          exact htext
        · exact List.forall_mem_cons.mpr ⟨⟨hP, hpadded⟩, hall⟩
      · split at h
        · next hclose =>
          cases h
          refine ⟨[⟨before, a, w, after⟩], List.cons_ne_nil _ _, rfl, ?_, ?_⟩
          · rw [sequenceText_singleton, ← hclose]
            exact htext
          · exact List.forall_mem_singleton.mpr ⟨hP, hpadded⟩
        · cases h

/-- An item ends before a blank, the separator and the bracket. -/
def Ends (blank : τ → Bool) (sep close : τ) (cs : List τ) : Prop :=
  ∃ c rest, cs = c :: rest ∧ (blank c = true ∨ c = sep ∨ c = close)

/-- A sequence of items that are each read is read. -/
theorem readSequence_complete (hsep : blank sep = false) (hclose : blank close = false) (hne : close ≠ sep)
    {parts : List (Part τ α)} (hparts : parts ≠ []) (hpadded : ∀ p ∈ parts, p.Padded blank)
    (htext : ∀ p ∈ parts, p.text ≠ [])
    (hitem : ∀ p ∈ parts, ∀ more, Ends blank sep close more → item (p.text ++ more) = some (p.value, more))
    {n : Nat} (hn : parts.length ≤ n) (rest : List τ) :
    readSequence blank item sep close n (sequenceText sep parts ++ close :: rest) = some (parts.map Part.value, rest) := by
  induction parts generalizing n with
  | nil => exact absurd rfl hparts
  | cons p parts ih =>
    cases n with
    | zero => simp at hn
    | succ n =>
      have hpad := hpadded p List.mem_cons_self
      obtain ⟨d, w, hw⟩ := List.exists_cons_of_ne_nil (htext p List.mem_cons_self)
      -- One item, whatever character comes behind it.
      have hone (c : τ) (tail : List τ) (hc : c = sep ∨ c = close) :
          item (skip blank (p.chars ++ c :: tail)) = some (p.value, p.after ++ c :: tail) ∧
            skip blank (p.after ++ c :: tail) = c :: tail := by
        have hblank : blank c = false := by rcases hc with rfl | rfl <;> assumption
        have hends : Ends blank sep close (p.after ++ c :: tail) := by
          cases hafter : p.after with
          | nil => exact ⟨c, tail, rfl, .inr hc⟩
          | cons a after => exact ⟨a, after ++ c :: tail, rfl, .inl (hpad.after a (by rw [hafter]; exact List.mem_cons_self))⟩
        have hskip : skip blank (p.before ++ (p.text ++ (p.after ++ c :: tail))) = p.text ++ (p.after ++ c :: tail) := by
          refine skip_append hpad.before ?_
          rw [hw]
          intro e he
          exact hpad.text e (by rw [hw]; exact he)
        refine ⟨?_, skip_append hpad.after fun e he => by cases he; exact hblank⟩
        rw [Part.chars, List.append_assoc, List.append_assoc, hskip]
        exact hitem p List.mem_cons_self _ hends
      rw [readSequence]
      cases parts with
      | nil =>
        obtain ⟨hread, hskip⟩ := hone close rest (.inr rfl)
        rw [sequenceText_singleton, hread, Option.bind_some]
        dsimp only
        rw [hskip]
        simp only [if_neg hne, if_true]
        rfl
      | cons q parts =>
        have hrest := ih (List.cons_ne_nil _ _) (fun r hr => hpadded r (List.mem_cons_of_mem p hr))
          (fun r hr => htext r (List.mem_cons_of_mem p hr)) (fun r hr => hitem r (List.mem_cons_of_mem p hr))
          (Nat.le_of_succ_le_succ hn)
        obtain ⟨hread, hskip⟩ := hone sep (sequenceText sep (q :: parts) ++ close :: rest) (.inl rfl)
        rw [sequenceText_cons _ _ (List.cons_ne_nil q parts), List.append_assoc, List.cons_append, hread, Option.bind_some]
        dsimp only
        rw [hskip]
        simp only [if_true]
        rw [hrest]
        rfl

end Occp.Lib.Sequences
