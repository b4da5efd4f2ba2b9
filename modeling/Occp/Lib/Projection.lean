import Occp.Lib.Runs

/-!
# What one party sees of a run

A run that many parties take steps in, and the part of its states that belongs to one of
them. Where a step of that party acts on its part alone, and every other step leaves the
part as it is, the part goes through a run of its own, of the party's events.
-/

namespace Occp.Lib

variable {σ τ ε : Type} (step : σ → ε → σ) (mine : σ → ε → Bool)

/-- The events of the party, of those that happen from this state on. -/
def seen : σ → List ε → List ε
  | _, [] => []
  | s, e :: events => if mine s e then e :: seen (step s e) events else seen (step s e) events

variable {step mine} (part : σ → τ) {stepPart : τ → ε → τ} {ok : σ → ε → Prop} {inv : σ → Prop}

/-- The part goes through the party's events, and nothing else. -/
theorem part_run (hinv : ∀ s e, inv s → ok s e → inv (step s e))
    (hmine : ∀ s e, inv s → ok s e → mine s e = true → part (step s e) = stepPart (part s) e)
    (hother : ∀ s e, inv s → ok s e → mine s e = false → part (step s e) = part s) {s : σ} {events : List ε}
    (hs : inv s) (h : Admitted step ok s events) :
    part (run step s events) = run stepPart (part s) (seen step mine s events) := by
  induction events generalizing s with
  | nil => rfl
  | cons e events ih =>
    rw [run_cons, ih (hinv s e hs h.1) h.2, seen]
    cases hm : mine s e with
    | true => rw [if_pos rfl, run_cons, hmine s e hs h.1 hm]
    | false => rw [if_neg Bool.false_ne_true, hother s e hs h.1 hm]

/-- Two runs in which the party does the same are the same to it. -/
theorem part_run_congr (hinv : ∀ s e, inv s → ok s e → inv (step s e))
    (hmine : ∀ s e, inv s → ok s e → mine s e = true → part (step s e) = stepPart (part s) e)
    (hother : ∀ s e, inv s → ok s e → mine s e = false → part (step s e) = part s) {s s' : σ} {events events' : List ε}
    (hs : inv s) (hs' : inv s') (h : Admitted step ok s events) (h' : Admitted step ok s' events')
    (hpart : part s = part s') (hseen : seen step mine s events = seen step mine s' events') :
    part (run step s events) = part (run step s' events') := by
  rw [part_run part hinv hmine hother hs h, part_run part hinv hmine hother hs' h', hpart, hseen]

end Occp.Lib
