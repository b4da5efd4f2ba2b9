import Mathlib.Data.List.Forall2

/-! # Computations that may raise -/

namespace Occp.Lib.Except

variable {ε α β γ : Type}

/-- A sequence returns when both parts do. -/
theorem bind_eq_ok {x : Except ε α} {f : α → Except ε β} {b : β} :
    (x >>= f) = .ok b ↔ ∃ a, x = .ok a ∧ f a = .ok b := by
  cases x <;> simp [bind, Except.bind]

@[simp] theorem ok_bind (a : α) (f : α → Except ε β) : ((.ok a : Except ε α) >>= f) = f a := rfl

@[simp] theorem pure_eq_ok {a b : α} : (pure a : Except ε α) = .ok b ↔ a = b := by
  simp [pure, Except.pure]

theorem mapM_eq_ok {f : α → Except ε β} {l : List α} {bs : List β} :
    l.mapM f = .ok bs ↔ List.Forall₂ (fun a b => f a = .ok b) l bs := by
  induction l generalizing bs with
  | nil => cases bs <;> simp
  | cons a l ih =>
    rw [List.mapM_cons, bind_eq_ok]
    constructor
    · rintro ⟨b, hb, hrest⟩
      obtain ⟨rest, hr, heq⟩ := bind_eq_ok.mp hrest
      rw [pure_eq_ok] at heq
      rw [← heq]
      exact .cons hb (ih.mp hr)
    · rintro (_ | ⟨hb, hrest⟩)
      exact ⟨_, hb, bind_eq_ok.mpr ⟨_, ih.mpr hrest, rfl⟩⟩

theorem exists_mapM_eq_ok {f : α → Except ε β} {l : List α} : (∃ bs, l.mapM f = .ok bs) ↔ ∀ a ∈ l, ∃ b, f a = .ok b := by
  induction l with
  | nil => exact iff_of_true ⟨[], rfl⟩ nofun
  | cons a l ih =>
    rw [List.forall_mem_cons, ← ih]
    simp only [mapM_eq_ok]
    constructor
    · rintro ⟨_, _ | ⟨hb, hrest⟩⟩
      exact ⟨⟨_, hb⟩, _, hrest⟩
    · rintro ⟨⟨b, hb⟩, bs, hrest⟩
      exact ⟨b :: bs, .cons hb hrest⟩

theorem exists_of_mapM_eq_error {f : α → Except ε β} {l : List α} {e : ε} (h : l.mapM f = .error e) :
    ∃ a ∈ l, f a = .error e := by
  induction l with
  | nil => cases h
  | cons a l ih =>
    rw [List.mapM_cons] at h
    cases ha : f a with
    | error e' =>
      rw [ha] at h
      cases h
      exact ⟨a, List.mem_cons_self, ha⟩
    | ok b =>
      rw [ha, ok_bind] at h
      cases hl : l.mapM f with
      | error e' =>
        rw [hl] at h
        cases h
        obtain ⟨a', hmem, ha'⟩ := ih hl
        exact ⟨a', List.mem_cons_of_mem a hmem, ha'⟩
      | ok bs =>
        rw [hl] at h
        cases h

theorem mem_flatten_of_mapM {f : α → Except ε (List β)} {l : List α} {bss : List (List β)} (h : l.mapM f = .ok bss) (b : β) :
    b ∈ bss.flatten ↔ ∃ a ∈ l, ∃ bs, f a = .ok bs ∧ b ∈ bs := by
  rw [mapM_eq_ok] at h
  induction h with
  | nil => simp
  | cons hbs _ ih =>
    rw [List.flatten_cons, List.mem_append, ih]
    simp [hbs]

end Occp.Lib.Except
