import Mathlib.Data.List.Chain
import Mathlib.Logic.Relation

/-!
# Layers and chains of a dependency graph

An order lists everything after what it depends on. Layers group such an order: each layer depends on the
layers before it alone. How far an element stands above the bottom of its graph, and what orders and layers say
about chains and cycles.
-/

namespace Occp.Lib

variable {α : Type}

/-! ## Orders and layers -/

section Layers

variable {deps : α → List α}

/-- The latest comes first: what an element depends on stands further down the list. -/
def DepsFirst (deps : α → List α) : List α → Prop
  | [] => True
  | x :: earlier => (∀ y ∈ deps x, y ∈ earlier) ∧ DepsFirst deps earlier

/-- Of any elements of an order, the earliest depends on none of the others. -/
theorem DepsFirst.exists_ready {order : List α} (h : DepsFirst deps order) (remaining : α → Prop)
    (hsome : ∃ x ∈ order, remaining x) : ∃ x ∈ order, remaining x ∧ ∀ y ∈ deps x, ¬ remaining y := by
  induction order with
  | nil =>
    obtain ⟨x, hx, _⟩ := hsome
    exact absurd hx List.not_mem_nil
  | cons x earlier ih =>
    by_cases hearlier : ∃ y ∈ earlier, remaining y
    · obtain ⟨y, hy, hready⟩ := ih h.2 hearlier
      exact ⟨y, List.mem_cons_of_mem _ hy, hready⟩
    · obtain ⟨z, hz, hrem⟩ := hsome
      rcases List.mem_cons.mp hz with rfl | hz
      · exact ⟨z, hz, hrem, fun y hy hry => hearlier ⟨y, h.1 y hy, hry⟩⟩
      · exact absurd ⟨z, hz, hrem⟩ hearlier

/-- Each layer depends on `done` and on the layers before it. -/
def Layered (deps : α → List α) : (done : List α) → List (List α) → Prop
  | _, [] => True
  | done, layer :: rest => (∀ x ∈ layer, ∀ y ∈ deps x, y ∈ done) ∧ Layered deps (done ++ layer) rest

theorem Layered.deps_before {done : List α} {before : List (List α)} {layer : List α} {after : List (List α)}
    (h : Layered deps done (before ++ layer :: after)) :
    ∀ x ∈ layer, ∀ y ∈ deps x, y ∈ done ++ before.flatten := by
  induction before generalizing done with
  | nil => simpa using h.1
  | cons first before ih =>
    have hrest := ih h.2
    rwa [List.append_assoc, ← List.flatten_cons] at hrest

end Layers

/-! ## Longest chains -/

/-- Of the chains that lead down from `x`, the longest has `n` steps. -/
structure LongestChain (r : α → α → Prop) (x : α) (n : Nat) : Prop where
  reached : ∃ chain, (x :: chain).IsChain r ∧ chain.length = n
  bound : ∀ chain, (x :: chain).IsChain r → chain.length ≤ n

theorem LongestChain.unique {r : α → α → Prop} {x : α} {m n : Nat} (hm : LongestChain r x m)
    (hn : LongestChain r x n) : m = n := by
  obtain ⟨p, hp, hpm⟩ := hm.reached
  obtain ⟨q, hq, hqn⟩ := hn.reached
  have hle := hn.bound p hp
  have hge := hm.bound q hq
  omega

/-! ## Cycles -/

/-- A rank that every step lowers leaves no cycle. -/
theorem not_transGen_of_rank {r : α → α → Prop} (rank : α → Nat → Prop)
    (hunique : ∀ x m n, rank x m → rank x n → m = n)
    (hstep : ∀ x y, r x y → ∃ m n, rank x m ∧ rank y n ∧ n < m) (x : α) : ¬ Relation.TransGen r x x := by
  have hlower (y : α) (h : Relation.TransGen r x y) : ∃ m n, rank x m ∧ rank y n ∧ n < m := by
    induction h with
    | single h => exact hstep _ _ h
    | tail _ h ih =>
      obtain ⟨m, n, hm, hn, hlt⟩ := ih
      obtain ⟨n', k, hn', hk, hlt'⟩ := hstep _ _ h
      obtain rfl := hunique _ _ _ hn hn'
      exact ⟨m, k, hm, hk, by omega⟩
  intro hcycle
  obtain ⟨m, n, hm, hn, hlt⟩ := hlower x hcycle
  have heq := hunique x m n hm hn
  omega

/-- Along a chain every element is above all that come after it. -/
theorem transGen_of_isChain {r : α → α → Prop} {x y : α} {chain : List α} (h : (chain ++ [y]).IsChain r)
    (hx : x ∈ chain) : Relation.TransGen r x y := by
  have htrans : (chain ++ [y]).IsChain (Relation.TransGen r) := h.imp fun _ _ => .single
  have hpairs := List.isChain_iff_pairwise.mp htrans
  exact (List.pairwise_append.mp hpairs).2.2 x hx y (by simp)

variable {deps : α → List α}

theorem DepsFirst.acc {order : List α} (h : DepsFirst deps order) :
    ∀ x ∈ order, Acc (fun y x => y ∈ deps x) x := by
  induction order with
  | nil => simp
  | cons a earlier ih =>
    intro x hx
    rcases List.mem_cons.mp hx with rfl | hx
    · exact Acc.intro x fun y hy => ih h.2 y (h.1 y hy)
    · exact ih h.2 x hx

/-- What an order lists is on no cycle. -/
theorem DepsFirst.not_transGen {order : List α} (h : DepsFirst deps order) {x : α} (hx : x ∈ order) :
    ¬ Relation.TransGen (fun a b => b ∈ deps a) x x := by
  have hacc := (h.acc x hx).transGen
  clear hx
  induction hacc with
  | intro x _ ih =>
    intro hcycle
    exact ih x (Relation.transGen_swap.mpr hcycle) hcycle

/-! ## Layers -/

/-- Every element of a layer depends on one of the layer right before. -/
def Tight (deps : α → List α) (layers : List (List α)) : Prop :=
  layers.IsChain fun earlier layer => ∀ x ∈ layer, ∃ y ∈ deps x, y ∈ earlier

theorem Layered.earlier {layers : List (List α)} (h : Layered deps [] layers) {i : Nat} {layer : List α}
    (hi : layers[i]? = some layer) {x y : α} (hx : x ∈ layer) (hy : y ∈ deps x) :
    ∃ j earlier, j < i ∧ layers[j]? = some earlier ∧ y ∈ earlier := by
  obtain ⟨hlt, hget⟩ := List.getElem?_eq_some_iff.mp hi
  have hsplit : layers = layers.take i ++ layer :: layers.drop (i + 1) := by
    rw [← hget, ← List.drop_eq_getElem_cons hlt, List.take_append_drop]
  rw [hsplit] at h
  have hbefore := h.deps_before x hx y hy
  rw [List.nil_append, List.mem_flatten] at hbefore
  obtain ⟨earlier, hmem, hy⟩ := hbefore
  obtain ⟨j, hj, rfl⟩ := List.mem_take_iff_getElem.mp hmem
  have hji : j < i := by omega
  exact ⟨j, _, hji, List.getElem?_eq_getElem _, hy⟩

/-- The layer of an element is the length of its longest chain. -/
theorem Layered.longestChain {layers : List (List α)} (h : Layered deps [] layers) (htight : Tight deps layers)
    (i : Nat) (layer : List α) (hi : layers[i]? = some layer) (x : α) (hx : x ∈ layer) :
    LongestChain (fun a b => b ∈ deps a) x i := by
  induction i using Nat.strongRecOn generalizing layer x with
  | ind i ih =>
    refine ⟨?_, fun chain hchain => ?_⟩
    · cases i with
      | zero => exact ⟨[], by simp, rfl⟩
      | succ i =>
        obtain ⟨hlt, rfl⟩ := List.getElem?_eq_some_iff.mp hi
        obtain ⟨y, hy, hbelow⟩ := List.isChain_iff_getElem.mp htight i hlt x hx
        obtain ⟨chain, hchain, hlen⟩ := (ih i (by omega) _ (List.getElem?_eq_getElem _) y hbelow).reached
        refine ⟨y :: chain, List.isChain_cons_cons.mpr ⟨hy, hchain⟩, ?_⟩
        rw [List.length_cons, hlen]
    · cases chain with
      | nil => simp
      | cons y chain =>
        obtain ⟨hy, hchain⟩ := List.isChain_cons_cons.mp hchain
        obtain ⟨j, earlier, hji, hj, hmem⟩ := h.earlier hi hx hy
        have hle := (ih j hji earlier hj y hmem).bound chain hchain
        rw [List.length_cons]
        omega

end Occp.Lib
