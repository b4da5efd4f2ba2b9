import Mathlib.Computability.Language
import Occp.Lib.Pattern

/-!
# The words that a row of items spells

One word for each item, put together. A measure of words that grows by little when words are
put together stays bounded where every item bounds it.
-/

namespace Occp.Lib

variable {α ι : Type}

def spelled (language : ι → Language α) (items : List ι) : Language α := (items.map language).prod

section

variable {language : ι → Language α} {items : List ι} {w : List α}

@[simp] theorem mem_spelled_nil : w ∈ spelled language [] ↔ w = [] := Language.mem_one w

theorem mem_spelled_cons {i : ι} :
    w ∈ spelled language (i :: items) ↔ ∃ u ∈ language i, ∃ v ∈ spelled language items, u ++ v = w := by
  rw [spelled, List.map_cons, List.prod_cons, Language.mem_mul]
  rfl

theorem append_mem_spelled {i : ι} {u v : List α} (hu : u ∈ language i) (hv : v ∈ spelled language items) :
    u ++ v ∈ spelled language (i :: items) :=
  mem_spelled_cons.mpr ⟨u, hu, v, hv, rfl⟩

theorem spelled_map {κ : Type} (f : ι → κ) (language : κ → Language α) (items : List ι) :
    spelled language (items.map f) = spelled (language ∘ f) items := by
  rw [spelled, spelled, List.map_map]

theorem spelled_congr {language' : ι → Language α} (h : ∀ i ∈ items, language i = language' i) :
    spelled language items = spelled language' items := by
  rw [spelled, spelled, List.map_congr_left h]

/-- Words of a class that its parts belong to, too, can be compared item by item. -/
theorem mem_spelled_mono {p : List α → Prop} {language' : ι → Language α}
    (hp : ∀ u v, p (u ++ v) → p u ∧ p v) (h : ∀ i ∈ items, ∀ w, p w → w ∈ language i → w ∈ language' i)
    (hpw : p w) (hw : w ∈ spelled language items) : w ∈ spelled language' items := by
  induction items generalizing w with
  | nil => exact hw
  | cons i items ih =>
    obtain ⟨u, hu, v, hv, rfl⟩ := mem_spelled_cons.mp hw
    obtain ⟨hpu, hpv⟩ := hp u v hpw
    exact append_mem_spelled (h i List.mem_cons_self u hpu hu)
      (ih (fun j hj => h j (List.mem_cons_of_mem _ hj)) hpv hv)

theorem exists_mem_spelled (h : ∀ i ∈ items, ∃ w, w ∈ language i) : ∃ w, w ∈ spelled language items := by
  induction items with
  | nil => exact ⟨[], rfl⟩
  | cons i items ih =>
    obtain ⟨u, hu⟩ := h i List.mem_cons_self
    obtain ⟨v, hv⟩ := ih fun j hj => h j (List.mem_cons_of_mem _ hj)
    exact ⟨u ++ v, append_mem_spelled hu hv⟩

/-! ## Measures -/

variable {m : List α → Nat}

theorem spelled_bounded (hm : ∀ u v, m (u ++ v) ≤ m u + m v + 1)
    (h : ∀ i ∈ items, ∃ b, ∀ w ∈ language i, m w ≤ b) : ∃ b, ∀ w ∈ spelled language items, m w ≤ b := by
  induction items with
  | nil =>
    refine ⟨m [], fun w hw => ?_⟩
    rw [mem_spelled_nil.mp hw]
  | cons i items ih =>
    obtain ⟨b, hb⟩ := h i List.mem_cons_self
    obtain ⟨c, hc⟩ := ih fun j hj => h j (List.mem_cons_of_mem _ hj)
    refine ⟨b + c + 1, fun w hw => ?_⟩
    obtain ⟨u, hu, v, hv, rfl⟩ := mem_spelled_cons.mp hw
    have hsum := hm u v
    have hbu := hb u hu
    have hcv := hc v hv
    omega

theorem spelled_unbounded (hleft : ∀ u v, m u ≤ m (u ++ v)) (hright : ∀ u v, m v ≤ m (u ++ v))
    (hne : ∀ i ∈ items, ∃ w, w ∈ language i) {i : ι} (hi : i ∈ items)
    (h : ∀ b, ∃ w ∈ language i, b ≤ m w) (b : Nat) : ∃ w ∈ spelled language items, b ≤ m w := by
  induction items with
  | nil => simp at hi
  | cons j items ih =>
    have hne' : ∀ k ∈ items, ∃ w, w ∈ language k := fun k hk => hne k (List.mem_cons_of_mem _ hk)
    rcases List.mem_cons.mp hi with rfl | hi
    · obtain ⟨u, hu, hle⟩ := h b
      obtain ⟨v, hv⟩ := exists_mem_spelled hne'
      exact ⟨u ++ v, append_mem_spelled hu hv, hle.trans (hleft u v)⟩
    · obtain ⟨u, hu⟩ := hne j List.mem_cons_self
      obtain ⟨v, hv, hle⟩ := ih hne' hi
      exact ⟨u ++ v, append_mem_spelled hu hv, hle.trans (hright u v)⟩

end

/-! ## Pieces -/

def Piece.language (p : Piece) : Language Char := {w | p.Consumes w}

@[simp] theorem Piece.mem_language_one {p : Char → Bool} {w : List Char} :
    w ∈ (Piece.one p).language ↔ ∃ c, p c = true ∧ w = [c] := by
  constructor
  · intro h
    cases h with
    | one _ c hc => exact ⟨c, hc, rfl⟩
  · rintro ⟨c, hc, rfl⟩
    exact Consumes.one p c hc

@[simp] theorem Piece.mem_language_oneOf {words : List (List Char)} {w : List Char} :
    w ∈ (Piece.oneOf words).language ↔ w ∈ words := by
  constructor
  · intro h
    cases h with
    | oneOf _ _ hw => exact hw
  · exact Consumes.oneOf words w

@[simp] theorem Piece.mem_language_many {p : Char → Bool} {w : List Char} :
    w ∈ (Piece.many p).language ↔ ∀ c ∈ w, p c = true := by
  induction w with
  | nil => exact ⟨fun _ => by simp, fun _ => Consumes.manyNil p⟩
  | cons c w ih =>
    rw [List.forall_mem_cons, ← ih]
    constructor
    · intro h
      cases h with
      | manyCons _ _ _ hc hcs => exact ⟨hc, hcs⟩
    · rintro ⟨hc, hcs⟩
      exact Consumes.manyCons p c w hc hcs

theorem accepts_iff_spelled (k : List Char → Bool) (ps : List Piece) (s : List Char) :
    Accepts k ps s ↔ ∃ w ∈ spelled Piece.language ps, ∃ rest, k rest = true ∧ w ++ rest = s := by
  induction ps generalizing s with
  | nil =>
    simp only [mem_spelled_nil, exists_eq_left, List.nil_append, exists_eq_right]
    constructor
    · intro h
      cases h with
      | nil _ hs => exact hs
    · exact Accepts.nil s
  | cons p ps ih =>
    constructor
    · intro h
      cases h with
      | cons _ _ u v hu hv =>
        obtain ⟨w, hw, rest, hrest, rfl⟩ := (ih v).mp hv
        exact ⟨u ++ w, append_mem_spelled hu hw, rest, hrest, List.append_assoc _ _ _⟩
    · rintro ⟨w, hw, rest, hrest, rfl⟩
      obtain ⟨u, hu, v, hv, rfl⟩ := mem_spelled_cons.mp hw
      rw [List.append_assoc]
      exact Accepts.cons p ps u (v ++ rest) hu ((ih _).mpr ⟨v, hv, rest, hrest, rfl⟩)

end Occp.Lib
