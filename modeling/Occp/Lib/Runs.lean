import Mathlib.Data.List.Basic

/-!
# Runs

A run takes one step for each event. What every step keeps, every run keeps, and what a
run brings about one of its steps brings about.
-/

namespace Occp.Lib

variable {σ ε : Type}

/-- The state after the events. -/
def run (step : σ → ε → σ) (s : σ) (events : List ε) : σ := events.foldl step s

variable (step : σ → ε → σ)

@[simp] theorem run_nil (s : σ) : run step s [] = s := rfl

@[simp] theorem run_cons (s : σ) (e : ε) (events : List ε) :
    run step s (e :: events) = run step (step s e) events := rfl

theorem run_append (s : σ) (before after : List ε) :
    run step s (before ++ after) = run step (run step s before) after := List.foldl_append

/-- Every event is admitted in the state that it meets. -/
def Admitted (ok : σ → ε → Prop) : σ → List ε → Prop
  | _, [] => True
  | s, e :: events => ok s e ∧ Admitted ok (step s e) events

instance Admitted.decidable (ok : σ → ε → Prop) [∀ s e, Decidable (ok s e)] (s : σ) (events : List ε) :
    Decidable (Admitted step ok s events) :=
  match events with
  | [] => .isTrue trivial
  | e :: events =>
    haveI := Admitted.decidable ok (step s e) events
    inferInstanceAs (Decidable (ok s e ∧ Admitted step ok (step s e) events))

variable {step} {ok : σ → ε → Prop}

theorem admitted_append {s : σ} {before after : List ε} :
    Admitted step ok s (before ++ after) ↔
      Admitted step ok s before ∧ Admitted step ok (run step s before) after := by
  induction before generalizing s with
  | nil => simp [Admitted]
  | cons e before ih => rw [List.cons_append, run_cons, Admitted, Admitted, ih, and_assoc]

/-- A run is admitted when each of its events is, wherever it stands. -/
theorem admitted_iff_forall {s : σ} {events : List ε} :
    Admitted step ok s events ↔ ∀ before e after, events = before ++ e :: after → ok (run step s before) e := by
  induction events generalizing s with
  | nil => exact iff_of_true trivial fun before e after h => absurd h.symm (by simp)
  | cons e events ih =>
    rw [Admitted, ih]
    constructor
    · rintro ⟨he, hrest⟩ before e' after hsplit
      cases before with
      | nil =>
        obtain ⟨rfl, -⟩ := List.cons.inj hsplit
        exact he
      | cons first before =>
        obtain ⟨rfl, htail⟩ := List.cons.inj hsplit
        exact hrest before e' after htail
    · intro h
      refine ⟨h [] e events rfl, fun before e' after hsplit => ?_⟩
      exact h (e :: before) e' after (by rw [hsplit, List.cons_append])

/-- What every admitted step keeps holds after every admitted run. -/
theorem Admitted.invariant {s : σ} {events : List ε} (h : Admitted step ok s events) (inv : σ → Prop) (hs : inv s)
    (hstep : ∀ s e, inv s → ok s e → inv (step s e)) : inv (run step s events) := by
  induction events generalizing s with
  | nil => exact hs
  | cons e events ih => exact ih h.2 (hstep s e hs h.1)

theorem Admitted.and {ok' : σ → ε → Prop} {s : σ} {events : List ε} (h : Admitted step ok s events)
    (h' : Admitted step ok' s events) : Admitted step (fun s e => ok s e ∧ ok' s e) s events := by
  induction events generalizing s with
  | nil => trivial
  | cons e events ih => exact ⟨⟨h.1, h'.1⟩, ih h.2 h'.2⟩

theorem admitted_congr {ok' : σ → ε → Prop} (h : ∀ s e, ok s e ↔ ok' s e) {s : σ} {events : List ε} :
    Admitted step ok s events ↔ Admitted step ok' s events := by
  rw [admitted_iff_forall, admitted_iff_forall]
  simp only [h]

theorem admitted_of_forall {s : σ} (events : List ε) (hok : ∀ s e, ok s e) : Admitted step ok s events := by
  induction events generalizing s with
  | nil => trivial
  | cons e events ih => exact ⟨hok s e, ih⟩

/-- What every step keeps holds after every run. -/
theorem run_invariant (inv : σ → Prop) (hstep : ∀ s e, inv s → inv (step s e)) {s : σ} (hs : inv s)
    (events : List ε) : inv (run step s events) := by
  have hall : Admitted step (fun _ _ => True) s events := admitted_of_forall events fun _ _ => trivial
  exact hall.invariant inv hs fun s e h _ => hstep s e h

/-- What a step keeps just when it is admitted holds all along a run just when the run is admitted. -/
theorem forall_prefix_iff_admitted {inv side : σ → Prop} (hside : ∀ s e, side s → side (step s e))
    (hstep : ∀ s e, side s → inv s → (inv (step s e) ↔ ok s e)) {s : σ} (hs : side s) (hinv : inv s)
    (events : List ε) :
    (∀ before, before <+: events → inv (run step s before)) ↔ Admitted step ok s events := by
  induction events generalizing s with
  | nil =>
    refine iff_of_true (fun before h => ?_) trivial
    rw [List.prefix_nil.mp h]
    exact hinv
  | cons e events ih =>
    constructor
    · intro h
      have hfirst : inv (step s e) := h [e] ⟨events, rfl⟩
      refine ⟨(hstep s e hs hinv).mp hfirst, (ih (hside s e hs) hfirst).mp fun before hbefore => ?_⟩
      exact h (e :: before) ((List.prefix_cons_inj e).mpr hbefore)
    · rintro ⟨hok, hrest⟩ before hbefore
      have hfirst : inv (step s e) := (hstep s e hs hinv).mpr hok
      rcases List.prefix_cons_iff.mp hbefore with rfl | ⟨rest, rfl, hlater⟩
      · exact hinv
      · exact (ih (hside s e hs) hfirst).mpr hrest rest hlater

/-- What a step ends just when it is not admitted, and no step brings back, is left by a run just
when the run is admitted. -/
theorem run_iff_admitted {inv : σ → Prop} (hstep : ∀ s e, inv (step s e) ↔ inv s ∧ ok s e) {s : σ} {events : List ε} :
    inv (run step s events) ↔ inv s ∧ Admitted step ok s events := by
  induction events generalizing s with
  | nil => exact (and_iff_left trivial).symm
  | cons e events ih => rw [run_cons, ih, hstep, Admitted, and_assoc]

/-- Where an element of a list stands that has grown by one. -/
theorem split_concat {α : Type} {xs before after : List α} {x y : α} (h : xs ++ [x] = before ++ y :: after) :
    (xs = before ∧ x = y) ∨ ∃ rest, xs = before ++ y :: rest := by
  rcases List.eq_nil_or_concat after with rfl | ⟨rest, last, rfl⟩
  · obtain ⟨hxs, hlast⟩ := List.append_inj' h rfl
    exact .inl ⟨hxs, List.singleton_inj.mp hlast⟩
  · have hlonger : xs ++ [x] = (before ++ y :: rest) ++ [last] := by simpa using h
    exact .inr ⟨rest, (List.append_inj' hlonger rfl).1⟩

/-- A run that makes `p` true has a step that does. -/
theorem run_turn {p : σ → Prop} {s : σ} {events : List ε} (hs : ¬ p s) (hend : p (run step s events)) :
    ∃ before e after, events = before ++ e :: after ∧ ¬ p (run step s before) ∧
      p (step (run step s before) e) := by
  induction events generalizing s with
  | nil => exact absurd hend hs
  | cons e events ih =>
    by_cases he : p (step s e)
    · exact ⟨[], e, events, rfl, hs, he⟩
    · obtain ⟨before, e', after, rfl, hbefore, hturn⟩ := ih he hend
      exact ⟨e :: before, e', after, rfl, hbefore, hturn⟩

end Occp.Lib
