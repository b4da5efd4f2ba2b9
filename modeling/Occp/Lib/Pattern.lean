import Mathlib.Data.List.Basic

/-!
# Matching a string against a sequence of pieces

The fragment of regular expressions that globs need: one character of a class,
any number of them, and one of several words. The matcher backtracks, as `re`
does, and is structural in the pieces and in the string.
-/

namespace Occp.Lib

inductive Piece where
  | one (p : Char → Bool)
  | many (p : Char → Bool)
  | oneOf (words : List (List Char))

namespace Piece

def literal (c : Char) : Piece := .one (· == c)

/-- What a piece may consume. -/
inductive Consumes : Piece → List Char → Prop
  | one (p : Char → Bool) (c : Char) (hc : p c = true) : Consumes (.one p) [c]
  | manyNil (p : Char → Bool) : Consumes (.many p) []
  | manyCons (p : Char → Bool) (c : Char) (cs : List Char) (hc : p c = true) (hcs : Consumes (.many p) cs) :
      Consumes (.many p) (c :: cs)
  | oneOf (words : List (List Char)) (w : List Char) (hw : w ∈ words) : Consumes (.oneOf words) w

def manyThen (p : Char → Bool) (k : List Char → Bool) : List Char → Bool
  | [] => k []
  | c :: cs => k (c :: cs) || (p c && manyThen p k cs)

end Piece

theorem dropPrefix?_eq_some (w s rest : List Char) : s.dropPrefix? w = some rest ↔ s = w ++ rest := by
  simp [List.dropPrefix?_eq_some_iff]

/-- Some split of the string is consumed piece by piece, and the rest is accepted by `k`. -/
def matchPieces : List Piece → (List Char → Bool) → List Char → Bool
  | [], k, s => k s
  | .one _ :: _, _, [] => false
  | .one p :: ps, k, c :: cs => p c && matchPieces ps k cs
  | .many p :: ps, k, s => Piece.manyThen p (matchPieces ps k) s
  | .oneOf words :: ps, k, s => words.any fun w =>
    match s.dropPrefix? w with
    | some rest => matchPieces ps k rest
    | none => false

/-- The language of the pieces, with what may follow them. -/
inductive Accepts (k : List Char → Bool) : List Piece → List Char → Prop
  | nil (s : List Char) (hs : k s = true) : Accepts k [] s
  | cons (p : Piece) (ps : List Piece) (w s : List Char) (hw : p.Consumes w) (hs : Accepts k ps s) :
      Accepts k (p :: ps) (w ++ s)

theorem Piece.manyThen_iff (p : Char → Bool) (k : List Char → Bool) (s : List Char) :
    Piece.manyThen p k s = true ↔ ∃ w rest, s = w ++ rest ∧ (Piece.many p).Consumes w ∧ k rest = true := by
  induction s with
  | nil =>
    simp only [Piece.manyThen]
    constructor
    · exact fun h => ⟨[], [], rfl, .manyNil p, h⟩
    · rintro ⟨w, rest, hs, -, hk⟩
      rwa [(List.append_eq_nil_iff.mp hs.symm).2] at hk
  | cons c cs ih =>
    simp only [Piece.manyThen, Bool.or_eq_true, Bool.and_eq_true, ih]
    constructor
    · rintro (h | ⟨hc, w, rest, rfl, hw, hk⟩)
      · exact ⟨[], c :: cs, rfl, .manyNil p, h⟩
      · exact ⟨c :: w, rest, rfl, .manyCons p c w hc hw, hk⟩
    · rintro ⟨w, rest, hs, hw, hk⟩
      cases hw with
      | manyNil => exact .inl (by rw [show c :: cs = rest from hs]; exact hk)
      | manyCons _ a as hc has =>
        obtain ⟨rfl, rfl⟩ := List.cons.inj hs
        exact .inr ⟨hc, as, rest, rfl, has, hk⟩

/-- The matcher decides the language. -/
theorem matchPieces_iff (k : List Char → Bool) (ps : List Piece) (s : List Char) :
    matchPieces ps k s = true ↔ Accepts k ps s := by
  induction ps generalizing s with
  | nil =>
    exact ⟨fun h => .nil s h, fun h => by cases h; assumption⟩
  | cons p ps ih =>
    have hcons : Accepts k (p :: ps) s ↔ ∃ w rest, s = w ++ rest ∧ p.Consumes w ∧ Accepts k ps rest :=
      ⟨fun h => by cases h with | cons _ _ w rest hw hs => exact ⟨w, rest, rfl, hw, hs⟩,
        fun ⟨w, rest, hs, hw, hrest⟩ => hs ▸ .cons p ps w rest hw hrest⟩
    rw [hcons]
    cases p with
    | one q =>
      constructor
      · cases s with
        | nil => simp [matchPieces]
        | cons c cs =>
          simp only [matchPieces, Bool.and_eq_true]
          exact fun ⟨hc, h⟩ => ⟨[c], cs, rfl, .one q c hc, (ih cs).mp h⟩
      · rintro ⟨w, rest, rfl, hw, h⟩
        cases hw with
        | one _ c hc => simp [matchPieces, hc, (ih rest).mpr h]
    | many q => simp only [matchPieces, Piece.manyThen_iff, ih]
    | oneOf words =>
      simp only [matchPieces, List.any_eq_true]
      constructor
      · rintro ⟨w, hw, h⟩
        split at h
        · next rest hrest => exact ⟨w, rest, (dropPrefix?_eq_some w s rest).mp hrest, .oneOf words w hw, (ih rest).mp h⟩
        · cases h
      · rintro ⟨w, rest, hs, hw, h⟩
        cases hw with
        | oneOf _ _ hw =>
          refine ⟨w, hw, ?_⟩
          rw [(dropPrefix?_eq_some w s rest).mpr hs]
          exact (ih rest).mpr h

/-- Literal pieces accept their own word and nothing else. -/
theorem accepts_literals (k : List Char → Bool) (word s : List Char) :
    Accepts k (word.map Piece.literal) s ↔ ∃ rest, s = word ++ rest ∧ k rest = true := by
  induction word generalizing s with
  | nil => exact ⟨fun h => by cases h with | nil _ hs => exact ⟨s, rfl, hs⟩, fun ⟨rest, hs, hk⟩ => hs ▸ .nil rest hk⟩
  | cons c cs ih =>
    constructor
    · intro h
      cases h with
      | cons _ _ w rest hw hs =>
        cases hw with
        | one _ d hd =>
          obtain ⟨tail, rfl, hk⟩ := (ih rest).mp hs
          exact ⟨tail, by rw [beq_iff_eq.mp hd]; rfl, hk⟩
    · rintro ⟨rest, rfl, hk⟩
      exact .cons _ _ [c] (cs ++ rest) (.one _ c (beq_self_eq_true c)) ((ih _).mpr ⟨rest, rfl, hk⟩)

end Occp.Lib
