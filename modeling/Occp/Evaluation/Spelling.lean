import Occp.Evaluation.SelfModifier

/-!
# Other spellings of a protected path

`check` matches the string it is given. A path of an immutable or a reviewed
file can be spelled so that only an autonomous-safe glob matches it.
-/

namespace Occp.Evaluation

open SelfModifier (verdict)

/-! ## Normal forms -/

/-- One segment of a path, with the segments before it, last one first. -/
def resolveSegment (absolute : Bool) (before : List (List Char)) (segment : List Char) : List (List Char) :=
  if segment = [] ∨ segment = ['.'] then before
  else if segment = ['.', '.'] then
    match before with
    | [] => if absolute then [] else [segment]
    | last :: rest => if last = ['.', '.'] then segment :: before else rest
  else segment :: before

/-- The path without `.` and `..` segments, repeated separators and a leading `./`. -/
def normalise (path : String) : String :=
  let cs := path.toList
  let absolute := cs.head? == some '/'
  let segments := ((cs.splitOn '/').foldl (resolveSegment absolute) []).reverse
  let body := ['/'].intercalate segments
  String.ofList (if absolute then '/' :: body else if body = [] then ['.'] else body)

example : normalise "./evaluation//../policy_engine/./guards.py" = "policy_engine/guards.py" := by decide

/-! ## What a path is checked against -/

section

variable (b : Boundaries)

/-- No spelling of a protected path is let through, and two spellings are judged alike. -/
structure SpellingProof (p q : String) : Prop where
  immutable : (matchRule (normalise p) b.immutable).isSome → (verdict b p).allowed = false
  review : (matchRule (normalise p) b.humanReviewRequired).isSome → (verdict b p).tier ≠ .autonomousSafe
  same : normalise p = normalise q →
    (verdict b p).tier = (verdict b q).tier ∧ (verdict b p).allowed = (verdict b q).allowed

/-- As it is spelled the path meets an autonomous-safe rule only; its normal form meets a protecting one. -/
def Disguised (p : String) : Prop :=
  matchRule p b.immutable = none ∧ matchRule p b.humanReviewRequired = none ∧
    (matchRule p b.autonomousSafe).isSome ∧
    ((matchRule (normalise p) b.immutable).isSome ∨ (matchRule (normalise p) b.humanReviewRequired).isSome)

/-- The first bucket with a matching rule is the same one. -/
def SameBucket (p q : String) : Prop :=
  (matchRule p b.immutable).isSome = (matchRule q b.immutable).isSome ∧
    (matchRule p b.immutable = none →
      (matchRule p b.humanReviewRequired).isSome = (matchRule q b.humanReviewRequired).isSome ∧
        (matchRule p b.humanReviewRequired = none →
          (matchRule p b.autonomousSafe).isSome = (matchRule q b.autonomousSafe).isSome))

end

variable {b : Boundaries}

/-- What `check` decides, as the rules decide it. -/
theorem verdict_cases (p : String) :
    (∃ r, matchRule p b.immutable = some r ∧ (verdict b p).tier = .immutable ∧ (verdict b p).allowed = false) ∨
    (matchRule p b.immutable = none ∧ ∃ r, matchRule p b.humanReviewRequired = some r ∧
      (verdict b p).tier = .humanReviewRequired ∧ (verdict b p).allowed = false) ∨
    (matchRule p b.immutable = none ∧ matchRule p b.humanReviewRequired = none ∧
      ∃ r, matchRule p b.autonomousSafe = some r ∧ (verdict b p).tier = .autonomousSafe ∧
        (verdict b p).allowed = true) ∨
    (matchRule p b.immutable = none ∧ matchRule p b.humanReviewRequired = none ∧
      matchRule p b.autonomousSafe = none ∧ (verdict b p).tier = .unknown ∧ (verdict b p).allowed = false) := by
  unfold SelfModifier.verdict
  cases hi : matchRule p b.immutable with
  | some r => exact .inl ⟨r, rfl, rfl, rfl⟩
  | none =>
    cases hh : matchRule p b.humanReviewRequired with
    | some r => exact .inr (.inl ⟨rfl, r, rfl, rfl, rfl⟩)
    | none =>
      cases ha : matchRule p b.autonomousSafe with
      | some r => exact .inr (.inr (.inl ⟨rfl, rfl, r, rfl, rfl, rfl⟩))
      | none => exact .inr (.inr (.inr ⟨rfl, rfl, rfl, rfl, rfl⟩))

theorem verdict_allowed_iff (p : String) : (verdict b p).allowed = true ↔ (verdict b p).tier = .autonomousSafe := by
  rcases verdict_cases (b := b) p with ⟨_, _, ht, ha⟩ | ⟨_, _, _, ht, ha⟩ | ⟨_, _, _, _, ht, ha⟩ | ⟨_, _, _, ht, ha⟩ <;>
    simp [ht, ha]

theorem verdict_autonomous_iff (p : String) :
    (verdict b p).tier = .autonomousSafe ↔
      matchRule p b.immutable = none ∧ matchRule p b.humanReviewRequired = none ∧
        (matchRule p b.autonomousSafe).isSome := by
  rcases verdict_cases (b := b) p with ⟨_, hi, ht, _⟩ | ⟨hi, _, hh, ht, _⟩ | ⟨hi, hh, _, ha, ht, _⟩ | ⟨hi, hh, ha, ht, _⟩ <;>
    simp [*]

theorem sameBucket_iff (p q : String) : SameBucket b p q ↔ (verdict b p).tier = (verdict b q).tier := by
  unfold SameBucket
  rcases verdict_cases (b := b) p with ⟨_, hi, ht, _⟩ | ⟨hi, _, hh, ht, _⟩ | ⟨hi, hh, _, ha, ht, _⟩ | ⟨hi, hh, ha, ht, _⟩ <;>
  rcases verdict_cases (b := b) q with
      ⟨_, hi', ht', _⟩ | ⟨hi', _, hh', ht', _⟩ | ⟨hi', hh', _, ha', ht', _⟩ | ⟨hi', hh', ha', ht', _⟩ <;>
    simp [*]

/-- A path that is spelled in its normal form is never a disguise. -/
theorem not_disguised_of_normal (p : String) (h : normalise p = p) : ¬ Disguised b p := by
  rintro ⟨hi, hh, -, hn⟩
  rw [h, hi, hh] at hn
  simp at hn

/-! ## Rules that name one file -/

theorem fnmatchToRegex_exact (cs : List Char) (h : ∀ c ∈ cs, c ≠ '*' ∧ c ≠ '?') :
    fnmatchToRegex cs = cs.map Lib.Piece.literal := by
  induction cs with
  | nil => rfl
  | cons c cs ih =>
    obtain ⟨hstar, hquestion⟩ := h c List.mem_cons_self
    rw [fnmatchToRegex, ih fun d hd => h d (List.mem_cons_of_mem _ hd), List.map_cons]
    · exact hstar
    · exact hquestion

theorem not_globHasMeta (cs : List Char) (h : ∀ c ∈ cs, c ≠ '*' ∧ c ≠ '?' ∧ c ≠ '{') : globHasMeta cs = false := by
  have hstars : hasDoubleStar cs = false := by
    induction cs with
    | nil => rfl
    | cons c cs ih =>
      rw [hasDoubleStar]
      · exact ih fun d hd => h d (List.mem_cons_of_mem _ hd)
      · exact fun _ hc => absurd hc (h c List.mem_cons_self).1
  simp only [globHasMeta, hstars, Bool.false_or, List.contains_eq_mem, decide_eq_false_iff_not]
  exact fun hmem => (h _ hmem).2.2 rfl

/-- A glob without wildcards is blind to every other spelling of the file it names. -/
theorem globMatch_exact (path : String) (glob : Glob)
    (h : ∀ c ∈ glob.text.toList, c ≠ '*' ∧ c ≠ '?' ∧ c ≠ '{') : globMatch path glob = true ↔ path = glob.text := by
  have hfn := fnmatchToRegex_exact glob.text.toList fun c hc => ⟨(h c hc).1, (h c hc).2.1⟩
  simp only [globMatch, not_globHasMeta _ h, Bool.false_eq_true, if_false, hfn, Lib.matchPieces_iff,
    Lib.accepts_literals, List.isEmpty_iff]
  constructor
  · rintro ⟨rest, hpath, rfl⟩
    rw [List.append_nil] at hpath
    exact String.toList_inj.mp hpath
  · rintro rfl
    exact ⟨[], (List.append_nil _).symm, rfl⟩

end Occp.Evaluation
