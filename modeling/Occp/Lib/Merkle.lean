import Mathlib.Data.List.Basic
import Mathlib.Data.Nat.Log

/-!
# Merkle trees over lists

A level joins the nodes below it two by two, and the last one with itself when it
has no partner. The apex is the node that is left on top.

Which lists share an apex? Those that become the same when the repeated nodes are
written out, and those of which one is a level of the other.
-/

namespace Occp.Lib

variable {α β γ : Type}

/-! ## Levels -/

def level (join : α → α → β) : List α → List β
  | [] => []
  | [x] => [join x x]
  | x :: y :: rest => join x y :: level join rest

@[simp] theorem length_level (join : α → α → β) (xs : List α) : (level join xs).length = (xs.length + 1) / 2 := by
  fun_induction level join xs with
  | case1 => simp
  | case2 => simp
  | case3 x y rest ih => simp [ih]; omega

theorem map_level (g : β → γ) (join : α → α → β) (xs : List α) :
    (level join xs).map g = level (fun x y => g (join x y)) xs := by
  fun_induction level join xs with
  | case1 => rfl
  | case2 => rfl
  | case3 x y rest ih => simp [level, ih]

theorem level_map (f : γ → α) (join : α → α → β) (xs : List γ) :
    level join (xs.map f) = level (fun x y => join (f x) (f y)) xs := by
  fun_induction level (fun x y => join (f x) (f y)) xs with
  | case1 => rfl
  | case2 => rfl
  | case3 x y rest ih => simp [level, ih]

/-- Node `i` joins the nodes `2i` and `2i + 1` below it, or `2i` with itself at an odd end. -/
theorem getElem?_level (join : α → α → β) (xs : List α) (i : Nat) :
    (level join xs)[i]? = xs[2 * i]?.map fun x => join x (xs[2 * i + 1]?.getD x) := by
  fun_induction level join xs generalizing i with
  | case1 => simp
  | case2 x => cases i <;> simp [Nat.mul_add]
  | case3 x y rest ih =>
    cases i with
    | zero => simp
    | succ i => simp [ih, Nat.mul_add]

theorem mem_level_mk {xs : List α} {p : α × α} (h : p ∈ level Prod.mk xs) : p.1 ∈ xs ∧ p.2 ∈ xs := by
  fun_induction level Prod.mk xs with
  | case1 => simp at h
  | case2 x => simp_all
  | case3 x y rest ih =>
    rcases List.mem_cons.mp h with rfl | h
    · simp
    · obtain ⟨h1, h2⟩ := ih h
      simp [h1, h2]

/-! ## The apex -/

/-- The node on top; an empty list has none. -/
def apex (join : α → α → α) (xs : List α) : Option α :=
  match xs with
  | [] => none
  | [x] => some x
  | x :: y :: rest => apex join (level join (x :: y :: rest))
termination_by xs.length
decreasing_by simp; omega

def nodes (join : α → α → α) (xs : List α) : List α :=
  match xs with
  | [] => []
  | [x] => [x]
  | x :: y :: rest => (x :: y :: rest) ++ nodes join (level join (x :: y :: rest))
termination_by xs.length
decreasing_by simp; omega

variable {join : α → α → α}

theorem apex_level {xs : List α} (h : 2 ≤ xs.length) : apex join (level join xs) = apex join xs := by
  match xs, h with
  | x :: y :: rest, _ => rw [apex.eq_def join (x :: y :: rest)]

theorem apex_isSome (join : α → α → α) {xs : List α} (h : xs ≠ []) : (apex join xs).isSome := by
  fun_induction apex join xs with
  | case1 => exact absurd rfl h
  | case2 => rfl
  | case3 x y rest ih => exact ih (by simp [level])

/-- A map that takes joins to joins takes the apex to the apex. -/
theorem apex_map {join' : β → β → β} (f : α → β) (hf : ∀ x y, f (join x y) = join' (f x) (f y)) (xs : List α) :
    apex join' (xs.map f) = (apex join xs).map f := by
  fun_induction apex join xs with
  | case1 => simp [apex]
  | case2 => simp [apex]
  | case3 x y rest ih =>
    rw [← apex_level (by simp), level_map, ← ih, map_level]
    simp only [hf]

theorem mem_nodes_of_mem {xs : List α} {x : α} (h : x ∈ xs) : x ∈ nodes join xs := by
  fun_cases nodes join xs with
  | case1 => exact h
  | case2 => exact h
  | case3 => exact List.mem_append_left _ h

theorem nodes_level_subset {xs : List α} (h : 2 ≤ xs.length) : nodes join (level join xs) ⊆ nodes join xs := by
  match xs, h with
  | x :: y :: rest, _ =>
    rw [nodes.eq_def join (x :: y :: rest)]
    exact List.subset_append_right _ _

theorem apex_mem_nodes {xs : List α} {x : α} (h : apex join xs = some x) : x ∈ nodes join xs := by
  fun_induction apex join xs with
  | case1 => simp at h
  | case2 y => simp_all [nodes]
  | case3 y z rest ih => exact nodes_level_subset (by simp) (ih h)

/-! ## Depth -/

def depth (xs : List α) : Nat := Nat.clog 2 xs.length

theorem depth_eq_of_length {xs : List α} {ys : List β} (h : xs.length = ys.length) : depth xs = depth ys := by
  rw [depth, depth, h]

theorem depth_of_two_le {xs : List α} (h : 2 ≤ xs.length) (f : α → α → β) : depth xs = depth (level f xs) + 1 := by
  rw [depth, depth, length_level, Nat.clog_of_two_le (by omega) h]
  simp

theorem depth_eq_zero_iff {xs : List α} : depth xs = 0 ↔ xs.length ≤ 1 := by
  rw [depth]
  constructor
  · intro h
    by_contra hlen
    have := Nat.clog_pos (b := 2) (by omega) (show 2 ≤ xs.length by omega)
    omega
  · intro h
    exact Nat.clog_of_right_le_one h 2

/-! ## Repeated nodes written out -/

/-- The two nodes of each pair, in turn. -/
def unpair (ps : List (α × α)) : List α := ps.flatMap fun p => [p.1, p.2]

/-- The list as the tree of depth `d` reads it: the nodes that odd levels repeat are written out. -/
def fill : Nat → {α : Type} → List α → List α
  | 0, _, xs => xs
  | d + 1, _, xs => unpair (fill d (level Prod.mk xs))

def filled (xs : List α) : List α := fill (depth xs) xs

theorem unpair_injective : Function.Injective (unpair : List (α × α) → List α) := by
  intro ps qs h
  induction ps generalizing qs with
  | nil =>
    cases qs with
    | nil => rfl
    | cons q qs => simp [unpair] at h
  | cons p ps ih =>
    cases qs with
    | nil => simp [unpair] at h
    | cons q qs =>
      simp only [unpair, List.flatMap_cons, List.cons_append, List.nil_append, List.cons.injEq] at h
      obtain ⟨h1, h2, hrest⟩ := h
      rw [Prod.ext h1 h2, ih hrest]

theorem unpair_map (f : α → β) (ps : List (α × α)) : unpair (ps.map (Prod.map f f)) = (unpair ps).map f := by
  simp [unpair, List.flatMap_map, List.map_flatMap]

theorem prefix_unpair_level (xs : List α) : xs <+: unpair (level Prod.mk xs) := by
  fun_induction level Prod.mk xs with
  | case1 => exact List.nil_prefix
  | case2 x => simp [unpair]
  | case3 x y rest ih => simpa [unpair] using ih

theorem fill_map (d : Nat) (f : α → β) (xs : List α) : fill d (xs.map f) = (fill d xs).map f := by
  induction d generalizing α β with
  | zero => rfl
  | succ d ih =>
    have hpairs : level Prod.mk (xs.map f) = (level Prod.mk xs).map (Prod.map f f) := by
      rw [level_map, map_level]
      rfl
    rw [fill, fill, hpairs, ih, unpair_map]

theorem mem_fill {d : Nat} {xs : List α} {x : α} (h : x ∈ fill d xs) : x ∈ xs := by
  induction d generalizing α with
  | zero => exact h
  | succ d ih =>
    obtain ⟨p, hp, hx⟩ := List.mem_flatMap.mp h
    obtain ⟨h1, h2⟩ := mem_level_mk (ih hp)
    rcases List.mem_pair.mp hx with rfl | rfl
    · exact h1
    · exact h2

theorem unpair_initial {ps qs : List (α × α)} (h : ps <+: qs) : unpair ps <+: unpair qs := by
  obtain ⟨rest, rfl⟩ := h
  exact ⟨unpair rest, by simp [unpair]⟩

theorem prefix_fill (d : Nat) (xs : List α) : xs <+: fill d xs := by
  induction d generalizing α with
  | zero => exact List.prefix_rfl
  | succ d ih => exact (prefix_unpair_level xs).trans (unpair_initial (ih _))

theorem filled_map (f : α → β) (xs : List α) : filled (xs.map f) = (filled xs).map f := by
  rw [filled, filled, depth_eq_of_length (List.length_map f), fill_map]

theorem filled_of_two_le {xs : List α} (h : 2 ≤ xs.length) : filled xs = unpair (filled (level Prod.mk xs)) := by
  rw [filled, filled, depth_of_two_le h Prod.mk, fill]

theorem filled_inj_of_length {xs ys : List α} (hlen : xs.length = ys.length) (h : filled xs = filled ys) : xs = ys := by
  have hx : xs <+: filled xs := prefix_fill _ xs
  have hy : ys <+: filled xs := h ▸ prefix_fill _ ys
  exact (List.prefix_of_prefix_length_le hx hy hlen.le).eq_of_length hlen

/-! ## When two lists share an apex -/

/-- No two pairs of nodes from `S` are joined to one node. -/
def JoinsApart (join : α → α → β) (S : α → Prop) : Prop :=
  ∀ x y x' y', S x → S y → S x' → S y' → join x y = join x' y' → x = x' ∧ y = y'

theorem map_inj_on {f : α → β} {xs ys : List α} (hf : ∀ x ∈ xs, ∀ y ∈ ys, f x = f y → x = y)
    (h : xs.map f = ys.map f) : xs = ys := by
  induction xs generalizing ys with
  | nil => exact (List.map_eq_nil_iff.mp h.symm).symm
  | cons x xs ih =>
    cases ys with
    | nil => simp at h
    | cons y ys =>
      rw [List.map_cons, List.map_cons, List.cons.injEq] at h
      obtain rfl := hf x (by simp) y (by simp) h.1
      rw [ih (fun a ha b hb => hf a (by simp [ha]) b (by simp [hb])) h.2]

/-- One level up, lists that read the same did so below. -/
theorem filled_level_inj {S : α → Prop} (hjoin : JoinsApart join S) {xs ys : List α} (hxs : ∀ x ∈ xs, S x)
    (hys : ∀ y ∈ ys, S y) (hx : 2 ≤ xs.length) (hy : 2 ≤ ys.length) :
    filled (level join xs) = filled (level join ys) ↔ filled xs = filled ys := by
  have hmap : ∀ zs : List α, level join zs = (level Prod.mk zs).map fun p => join p.1 p.2 := by
    intro zs
    rw [map_level]
  rw [hmap xs, hmap ys, filled_map, filled_map, filled_of_two_le hx, filled_of_two_le hy]
  constructor
  · intro h
    congr 1
    refine map_inj_on (fun p hp q hq heq => ?_) h
    obtain ⟨hp1, hp2⟩ := mem_level_mk (mem_fill hp)
    obtain ⟨hq1, hq2⟩ := mem_level_mk (mem_fill hq)
    obtain ⟨h1, h2⟩ := hjoin _ _ _ _ (hxs _ hp1) (hxs _ hp2) (hys _ hq1) (hys _ hq2) heq
    exact Prod.ext h1 h2
  · intro h
    rw [unpair_injective h]

theorem apex_eq_iff_of_depth {S : α → Prop} (hjoin : JoinsApart join S) {xs ys : List α}
    (hxs : ∀ x ∈ nodes join xs, S x) (hys : ∀ y ∈ nodes join ys, S y) (hne : xs ≠ []) (hne' : ys ≠ [])
    (hdepth : depth xs = depth ys) : apex join xs = apex join ys ↔ filled xs = filled ys := by
  fun_induction apex join xs generalizing ys with
  | case1 => exact absurd rfl hne
  | case2 x =>
    have hlen : ys.length ≤ 1 := depth_eq_zero_iff.mp (hdepth ▸ depth_eq_zero_iff.mpr (by simp))
    match ys, hne', hlen with
    | [y], _, _ => simp [apex, filled, depth, fill]
  | case3 x y rest ih =>
    have hlen : 2 ≤ ys.length := by
      by_contra hlen
      have hzero := hdepth ▸ depth_eq_zero_iff.mpr (show ys.length ≤ 1 by omega)
      simpa using depth_eq_zero_iff.mp hzero
    have hlevel : depth (level join (x :: y :: rest)) = depth (level join ys) := by
      have := depth_of_two_le (show 2 ≤ (x :: y :: rest).length by simp) join
      have := depth_of_two_le hlen join
      omega
    have hne'' : level join ys ≠ [] := by
      apply List.ne_nil_of_length_pos
      simp; omega
    rw [← apex_level hlen, ih (fun z hz => hxs z (nodes_level_subset (by simp) hz))
      (fun z hz => hys z (nodes_level_subset hlen hz)) (by simp [level]) hne'' hlevel]
    exact filled_level_inj hjoin (fun z hz => hxs z (mem_nodes_of_mem hz)) (fun z hz => hys z (mem_nodes_of_mem hz))
      (by simp) hlen

def rise (join : α → α → α) : Nat → List α → List α
  | 0, xs => xs
  | k + 1, xs => rise join k (level join xs)

/-- One list is a level of the other, or they stand level, and they read the same there. -/
def Twins (join : α → α → α) (xs ys : List α) : Prop :=
  (∃ k, depth xs = depth ys + k ∧ filled (rise join k xs) = filled ys) ∨
    ∃ k, depth ys = depth xs + k ∧ filled xs = filled (rise join k ys)

/-- `k` levels up, the tree is the same from there on. -/
theorem rise_spec (join : α → α → α) {k d : Nat} {xs : List α} (hne : xs ≠ []) (hdepth : depth xs = d + k) :
    rise join k xs ≠ [] ∧ depth (rise join k xs) = d ∧ apex join (rise join k xs) = apex join xs ∧
      nodes join (rise join k xs) ⊆ nodes join xs := by
  induction k generalizing xs with
  | zero => exact ⟨hne, hdepth, rfl, List.Subset.refl _⟩
  | succ k ih =>
    have hlen : 2 ≤ xs.length := by
      by_contra hlen
      have := depth_eq_zero_iff.mpr (show xs.length ≤ 1 by omega)
      omega
    have hup : level join xs ≠ [] := by
      apply List.ne_nil_of_length_pos
      simp; omega
    have hlevel := depth_of_two_le hlen join
    obtain ⟨hrise, hd, hapex, hnodes⟩ := ih hup (by omega)
    exact ⟨hrise, hd, hapex.trans (apex_level hlen), List.Subset.trans hnodes (nodes_level_subset hlen)⟩

/-- **Two lists share an apex just when they are twins.** -/
theorem apex_eq_iff_twins {S : α → Prop} (hjoin : JoinsApart join S) {xs ys : List α}
    (hxs : ∀ x ∈ nodes join xs, S x) (hys : ∀ y ∈ nodes join ys, S y) (hne : xs ≠ []) (hne' : ys ≠ []) :
    apex join xs = apex join ys ↔ Twins join xs ys := by
  have hhigh : ∀ {xs ys : List α} {k : Nat}, (∀ x ∈ nodes join xs, S x) → (∀ y ∈ nodes join ys, S y) → xs ≠ [] →
      ys ≠ [] → depth xs = depth ys + k → (apex join xs = apex join ys ↔ filled (rise join k xs) = filled ys) := by
    intro xs ys k hxs hys hne hne' hdepth
    obtain ⟨hrise, hd, hapex, hnodes⟩ := rise_spec join hne hdepth
    rw [← hapex]
    exact apex_eq_iff_of_depth hjoin (fun x hx => hxs x (hnodes hx)) hys hrise hne' hd
  constructor
  · intro h
    rcases Nat.le_total (depth ys) (depth xs) with hle | hle
    · obtain ⟨k, hk⟩ := Nat.exists_eq_add_of_le hle
      exact .inl ⟨k, hk, (hhigh hxs hys hne hne' hk).mp h⟩
    · obtain ⟨k, hk⟩ := Nat.exists_eq_add_of_le hle
      exact .inr ⟨k, hk, ((hhigh hys hxs hne' hne hk).mp h.symm).symm⟩
  · rintro (⟨k, hk, h⟩ | ⟨k, hk, h⟩)
    · exact (hhigh hxs hys hne hne' hk).mpr h
    · exact ((hhigh hys hxs hne' hne hk).mpr h.symm).symm

theorem Twins.eq_of_length {xs ys : List α} (h : Twins join xs ys) (hlen : xs.length = ys.length) : xs = ys := by
  have hdepth := depth_eq_of_length hlen
  rcases h with ⟨k, hk, h⟩ | ⟨k, hk, h⟩
  · obtain rfl : k = 0 := by omega
    exact filled_inj_of_length hlen h
  · obtain rfl : k = 0 := by omega
    exact filled_inj_of_length hlen h

end Occp.Lib
