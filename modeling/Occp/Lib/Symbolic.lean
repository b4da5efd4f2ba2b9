import Mathlib.Tactic.DeriveEncodable

/-!
# Symbolic cryptography

Messages are terms. An adversary composes terms from what it knows and takes pairs apart; nothing
else can be got out of a hash, a tag, a public key or a signature.
-/

namespace Occp.Lib.Symbolic

/-- `data` is public, and a `name` is a secret that nobody can guess. -/
inductive Term where
  | data (n : Nat)
  | name (n : Nat)
  | pair (a b : Term)
  | hash (t : Term)
  | mac (key message : Term)
  | pub (key : Term)
  | sign (key message : Term)
  deriving DecidableEq, Encodable

/-- What an adversary can derive that knows these terms. -/
inductive Derivable (known : Term → Prop) : Term → Prop where
  | known {t : Term} (h : known t) : Derivable known t
  | data (n : Nat) : Derivable known (.data n)
  | pair {a b : Term} (ha : Derivable known a) (hb : Derivable known b) : Derivable known (.pair a b)
  | fst {a b : Term} (h : Derivable known (.pair a b)) : Derivable known a
  | snd {a b : Term} (h : Derivable known (.pair a b)) : Derivable known b
  | hash {t : Term} (h : Derivable known t) : Derivable known (.hash t)
  | mac {k m : Term} (hk : Derivable known k) (hm : Derivable known m) : Derivable known (.mac k m)
  | pub {k : Term} (h : Derivable known k) : Derivable known (.pub k)
  | sign {k m : Term} (hk : Derivable known k) (hm : Derivable known m) : Derivable known (.sign k m)

/-- What can be taken out of a term. -/
def Term.parts : Term → List Term
  | .pair a b => .pair a b :: (a.parts ++ b.parts)
  | t => [t]

/-- The adversary can make the term from others. -/
def Composed (known : Term → Prop) : Term → Prop
  | .data _ => True
  | .name _ => False
  | .pair a b => Derivable known a ∧ Derivable known b
  | .hash t => Derivable known t
  | .mac k m => Derivable known k ∧ Derivable known m
  | .pub k => Derivable known k
  | .sign k m => Derivable known k ∧ Derivable known m

variable {known : Term → Prop} {t p : Term}

/-- Each part of a derivable term is part of a known term, or the adversary has made it. -/
theorem Derivable.origin (h : Derivable known t) (hp : p ∈ t.parts) :
    (∃ u, known u ∧ p ∈ u.parts) ∨ Composed known p := by
  induction h with
  | known h => exact .inl ⟨_, h, hp⟩
  | data n =>
    obtain rfl := List.mem_singleton.mp hp
    exact .inr trivial
  | pair ha hb iha ihb =>
    rcases List.mem_cons.mp hp with rfl | hp
    · exact .inr ⟨ha, hb⟩
    · rcases List.mem_append.mp hp with hp | hp
      · exact iha hp
      · exact ihb hp
  | fst _ ih => exact ih (List.mem_cons_of_mem _ (List.mem_append_left _ hp))
  | snd _ ih => exact ih (List.mem_cons_of_mem _ (List.mem_append_right _ hp))
  | hash h _ =>
    obtain rfl := List.mem_singleton.mp hp
    exact .inr h
  | mac hk hm _ _ =>
    obtain rfl := List.mem_singleton.mp hp
    exact .inr ⟨hk, hm⟩
  | pub h _ =>
    obtain rfl := List.mem_singleton.mp hp
    exact .inr h
  | sign hk hm _ _ =>
    obtain rfl := List.mem_singleton.mp hp
    exact .inr ⟨hk, hm⟩

theorem Derivable.name_part {n : Nat} (h : Derivable known (.name n)) : ∃ u, known u ∧ .name n ∈ u.parts := by
  rcases h.origin (List.mem_singleton_self _) with hknown | hcomposed
  · exact hknown
  · exact absurd hcomposed id

/-- A signature is learnt from a term that it is part of, where its key cannot be learnt. -/
theorem Derivable.sign_part {k m : Term} (h : Derivable known (.sign k m)) (hk : ¬ Derivable known k) :
    ∃ u, known u ∧ .sign k m ∈ u.parts := by
  rcases h.origin (List.mem_singleton_self _) with hknown | hcomposed
  · exact hknown
  · exact absurd hcomposed.1 hk

end Occp.Lib.Symbolic
