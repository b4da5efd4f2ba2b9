import Mathlib

/-!
# Reading a triple back

What a proved triple says of one run: about the value that it returns or the
error that it raises, and the state it leaves.
-/

open Std.Do

namespace Occp.Lib

variable {ε σ α : Type} {P : σ → Prop} {Q : α → σ → Prop} {E : ε → σ → Prop}

theorem run_of_triple {x : ExceptT ε (StateM σ) α}
    (h : ⦃fun s => ⌜P s⌝⦄ x ⦃post⟨fun a s => ⌜Q a s⌝, fun e s => ⌜E e s⌝⟩⦄) {s : σ} (hs : P s) :
    (∃ a, (x.run s).1 = .ok a ∧ Q a (x.run s).2) ∨ ∃ e, (x.run s).1 = .error e ∧ E e (x.run s).2 := by
  have h := h s hs
  simp only [WP.wp, PredTrans.apply_pushExcept, PredTrans.apply_pushArg] at h
  rcases hr : x.run s with ⟨e | a, s'⟩ <;>
    have hr : StateT.run (ExceptT.run x) s = _ := hr <;> rw [hr] at h
  · exact .inr ⟨e, rfl, h⟩
  · exact .inl ⟨a, rfl, h⟩

end Occp.Lib
