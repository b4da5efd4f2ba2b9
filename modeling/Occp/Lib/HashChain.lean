import Mathlib.Data.List.Forall2
import Mathlib.Data.List.Induction

/-!
# Hash chains

Every entry carries a mark, which is stamped from the entry and the mark before it.
The tip of a chain binds all of it.
-/

namespace Occp.Lib

variable {ε μ : Type} {stamp : μ → ε → μ} {mark : ε → μ}

/-- The mark of the last entry; without entries, the one to start from. -/
def tip (mark : ε → μ) (start : μ) (entries : List ε) : μ :=
  match entries.getLast? with
  | some e => mark e
  | none => start

/-- Every entry, after the mark before it. -/
def links (mark : ε → μ) : μ → List ε → List (μ × ε)
  | _, [] => []
  | before, e :: entries => (before, e) :: links mark (mark e) entries

/-- Every mark is stamped from its entry and the mark before it. -/
def Chained (stamp : μ → ε → μ) (mark : ε → μ) : μ → List ε → Prop
  | _, [] => True
  | before, e :: entries => mark e = stamp before e ∧ Chained stamp mark (mark e) entries

@[simp] theorem tip_nil (start : μ) : tip mark start [] = start := rfl

@[simp] theorem tip_concat (start : μ) (entries : List ε) (e : ε) : tip mark start (entries ++ [e]) = mark e := by
  simp [tip]

theorem tip_cons (start : μ) (e : ε) (entries : List ε) : tip mark start (e :: entries) = tip mark (mark e) entries := by
  cases entries with
  | nil => rfl
  | cons e' entries =>
    unfold tip
    rw [List.getLast?_cons_cons, List.getLast?_cons]

theorem links_concat (start : μ) (entries : List ε) (e : ε) :
    links mark start (entries ++ [e]) = links mark start entries ++ [(tip mark start entries, e)] := by
  induction entries generalizing start with
  | nil => rfl
  | cons first entries ih => rw [List.cons_append, links, links, ih, tip_cons, List.cons_append]

theorem chained_concat {start : μ} {entries : List ε} {e : ε} :
    Chained stamp mark start (entries ++ [e]) ↔
      Chained stamp mark start entries ∧ mark e = stamp (tip mark start entries) e := by
  induction entries generalizing start with
  | nil => simp [Chained]
  | cons first entries ih => rw [List.cons_append, Chained, Chained, ih, tip_cons, and_assoc]

theorem Chained.of_append {start : μ} {entries later : List ε} (h : Chained stamp mark start (entries ++ later)) :
    Chained stamp mark start entries := by
  induction entries generalizing start with
  | nil => trivial
  | cons first entries ih => exact ⟨h.1, ih h.2⟩

theorem Chained.mark_eq {start : μ} {entries : List ε} (h : Chained stamp mark start entries) :
    ∀ l ∈ links mark start entries, mark l.2 = stamp l.1 l.2 := by
  induction entries generalizing start with
  | nil => simp [links]
  | cons first entries ih =>
    intro l hl
    rcases List.mem_cons.mp hl with rfl | hl
    · exact h.1
    · exact ih h.2 l hl

/-- What stands before a link: the start, or a stamp. -/
theorem Chained.before_stamped {start : μ} {entries : List ε} (h : Chained stamp mark start entries) :
    ∀ l ∈ links mark start entries, l.1 = start ∨ ∃ before e, l.1 = stamp before e := by
  induction entries generalizing start with
  | nil => simp [links]
  | cons first entries ih =>
    intro l hl
    rcases List.mem_cons.mp hl with rfl | hl
    · exact .inl rfl
    · rcases ih h.2 l hl with hfirst | hstamped
      · exact .inr ⟨start, first, by rw [hfirst, h.1]⟩
      · exact .inr hstamped

/-- Entries with the same stamps and marks are chained alike. -/
theorem Chained.of_forall₂ {Agree : ε → ε → Prop} (hstamp : ∀ e e', Agree e e' → ∀ before, stamp before e = stamp before e')
    (hmark : ∀ e e', Agree e e' → mark e = mark e') {start : μ} {entries entries' : List ε}
    (hagree : List.Forall₂ Agree entries entries') (h : Chained stamp mark start entries) :
    Chained stamp mark start entries' := by
  induction hagree generalizing start with
  | nil => trivial
  | cons hfirst hrest ih =>
    refine ⟨?_, ?_⟩
    · rw [← hmark _ _ hfirst, h.1, hstamp _ _ hfirst]
    · rw [← hmark _ _ hfirst]
      exact ih h.2

/-- **The tip binds the chain.** Where stamps tell the links apart and none of them is the start,
two chains with one tip agree entry by entry. -/
theorem forall₂_of_tip_eq {Agree : ε → ε → Prop} {start : μ} {entries entries' : List ε}
    (hstamp : ∀ l ∈ links mark start entries, ∀ l' ∈ links mark start entries', stamp l.1 l.2 = stamp l'.1 l'.2 →
      l.1 = l'.1 ∧ Agree l.2 l'.2)
    (hstart : ∀ before e, stamp before e ≠ start) (h : Chained stamp mark start entries)
    (h' : Chained stamp mark start entries') (htip : tip mark start entries = tip mark start entries') :
    List.Forall₂ Agree entries entries' := by
  induction entries using List.reverseRecOn generalizing entries' with
  | nil =>
    rcases List.eq_nil_or_concat' entries' with rfl | ⟨earlier', y, rfl⟩
    · exact .nil
    · rw [tip_nil, tip_concat, (chained_concat.mp h').2] at htip
      exact absurd htip.symm (hstart _ _)
  | append_singleton earlier x ih =>
    rw [chained_concat] at h
    rcases List.eq_nil_or_concat' entries' with rfl | ⟨earlier', y, rfl⟩
    · rw [tip_nil, tip_concat, h.2] at htip
      exact absurd htip (hstart _ _)
    · rw [chained_concat] at h'
      rw [tip_concat, tip_concat, h.2, h'.2] at htip
      simp only [links_concat] at hstamp
      obtain ⟨hbefore, hagree⟩ := hstamp (tip mark start earlier, x) (List.mem_concat_self ..)
        (tip mark start earlier', y) (List.mem_concat_self ..) htip
      have hrest := ih (fun l hl l' hl' => hstamp l (List.mem_append_left _ hl) l' (List.mem_append_left _ hl'))
        h.1 h'.1 hbefore
      exact List.rel_append hrest (.cons hagree .nil)

end Occp.Lib
