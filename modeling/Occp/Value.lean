import Mathlib.Data.Rat.Defs

/-!
# Python values

The JSON-shaped values that tasks, plans and policy files carry, and the
dictionary operations that the code uses on them.
-/

namespace Occp

inductive Value where
  | none
  | bool (b : Bool)
  | int (n : Int)
  | float (q : Rat)
  | str (s : String)
  | list (items : List Value)
  | dict (entries : List (String × Value))

instance : Inhabited Value := ⟨.none⟩

/-- Python's `sub in s`. -/
def isSubstring (sub : List Char) : List Char → Bool
  | [] => sub.isEmpty
  | c :: cs => sub.isPrefixOf (c :: cs) || isSubstring sub cs

/-- One character of a `repr`, between quotes of this kind. Characters from U+00A0 on are
taken as printable. -/
def reprChar (quote c : Char) : List Char :=
  if c = quote ∨ c = '\\' then ['\\', c]
  else if c = '\n' then ['\\', 'n']
  else if c = '\r' then ['\\', 'r']
  else if c = '\t' then ['\\', 't']
  else if c.toNat < 32 ∨ (127 ≤ c.toNat ∧ c.toNat < 160) then
    ['\\', 'x', Nat.digitChar (c.toNat / 16), Nat.digitChar (c.toNat % 16)]
  else [c]

/-- `repr` of a string. -/
def reprString (s : String) : String :=
  let quote := if s.toList.contains (Char.ofNat 39) && !s.toList.contains '"' then '"' else Char.ofNat 39
  String.ofList (quote :: s.toList.flatMap (reprChar quote) ++ [quote])

/-- `repr` of a list of strings. -/
def reprStrings (items : List String) : String :=
  "[" ++ ", ".intercalate (items.map reprString) ++ "]"

/-- A `dict` with string keys, in insertion order. -/
abbrev Dict (α : Type) := List (String × α)

namespace Dict

variable {α : Type}

/-- `d.get(key)`. -/
def get? : Dict α → String → Option α
  | [], _ => .none
  | (k, v) :: rest, key => if k = key then some v else get? rest key

/-- `d[key] = value`: in place when the key is there, at the end when it is new. -/
def set : Dict α → String → α → Dict α
  | [], key, value => [(key, value)]
  | (k, v) :: rest, key, value =>
    if k = key then (k, value) :: rest else (k, v) :: set rest key value

def keys (d : Dict α) : List String := d.map (·.1)

@[simp] theorem get?_nil (key : String) : get? ([] : Dict α) key = .none := rfl

@[simp] theorem get?_set_self (d : Dict α) (key : String) (v : α) :
    (d.set key v).get? key = some v := by
  induction d with
  | nil => simp [set, get?]
  | cons e rest ih =>
    obtain ⟨k, w⟩ := e
    by_cases h : k = key <;> simp [set, get?, h, ih]

theorem get?_set_of_ne (d : Dict α) (key other : String) (v : α) (h : other ≠ key) :
    (d.set key v).get? other = d.get? other := by
  induction d with
  | nil => simp [set, get?, h.symm]
  | cons e rest ih =>
    obtain ⟨k, w⟩ := e
    by_cases hk : k = key
    · subst hk
      simp [set, get?, h.symm]
    · by_cases ho : k = other
      · subst ho
        simp [set, get?, hk]
      · simp [set, get?, hk, ho, ih]

/-- One reading rule for both cases of `set`. -/
theorem get?_set (d : Dict α) (key other : String) (v : α) :
    (d.set key v).get? other = if other = key then some v else d.get? other := by
  split
  · next h => rw [h, get?_set_self]
  · next h => exact get?_set_of_ne d key other v h

theorem get?_map {β : Type} (f : α → β) (d : Dict α) (key : String) :
    get? (d.map fun e => (e.1, f e.2)) key = (get? d key).map f := by
  induction d with
  | nil => rfl
  | cons e rest ih =>
    obtain ⟨k, w⟩ := e
    by_cases hk : k = key
    · simp [get?, hk]
    · simpa [get?, hk] using ih

theorem mem_keys_set (d : Dict α) (key other : String) (v : α) :
    other ∈ (d.set key v).keys ↔ other = key ∨ other ∈ d.keys := by
  induction d with
  | nil => simp [set, keys]
  | cons e rest ih =>
    obtain ⟨k, w⟩ := e
    simp only [keys] at ih
    by_cases hk : k = key
    · subst hk
      simp [set, keys]
    · simp only [set, hk, if_false, keys, List.map_cons, List.mem_cons, ih]
      tauto

theorem nodup_keys_set (d : Dict α) (key : String) (v : α) (h : d.keys.Nodup) : (d.set key v).keys.Nodup := by
  induction d with
  | nil => simp [set, keys]
  | cons e rest ih =>
    obtain ⟨k, w⟩ := e
    simp only [keys, List.map_cons, List.nodup_cons] at h
    by_cases hk : k = key
    · simpa [set, hk, keys] using h
    · have hnot : k ∉ (set rest key v).keys := by
        rw [mem_keys_set]
        rintro (heq | hmem)
        · exact hk heq
        · exact h.1 hmem
      simpa [set, hk, keys] using ⟨by simpa [keys] using hnot, ih h.2⟩

theorem get?_eq_none_iff (d : Dict α) (key : String) : d.get? key = .none ↔ key ∉ d.keys := by
  induction d with
  | nil => simp [keys]
  | cons e rest ih =>
    obtain ⟨k, w⟩ := e
    by_cases hk : k = key
    · simp [get?, hk, keys]
    · have hk' : key ≠ k := fun h => hk h.symm
      simp only [get?, hk, if_false, ih, keys, List.map_cons, List.mem_cons, hk', false_or]

theorem mem_iff_get? (d : Dict α) (h : d.keys.Nodup) (key : String) (v : α) :
    (key, v) ∈ d ↔ get? d key = some v := by
  induction d with
  | nil => simp
  | cons e rest ih =>
    obtain ⟨k, w⟩ := e
    simp only [keys, List.map_cons, List.nodup_cons] at h
    rw [List.mem_cons, ih h.2, get?]
    by_cases hk : k = key
    · subst hk
      have hrest : get? rest k = .none := (get?_eq_none_iff rest k).mpr h.1
      simp [hrest, eq_comm]
    · simp [hk, Ne.symm hk]

/-- `d.pop(key, None)`. -/
def pop (d : Dict α) (key : String) : Dict α := d.filter fun e => e.1 ≠ key

theorem get?_pop (d : Dict α) (key other : String) :
    get? (pop d key) other = if other = key then .none else get? d other := by
  induction d with
  | nil => simp [pop]
  | cons e rest ih =>
    obtain ⟨k, w⟩ := e
    unfold pop at ih ⊢
    by_cases hk : k = key
    · subst hk
      rw [List.filter_cons_of_neg (by simp), ih, get?]
      by_cases ho : other = k
      · rw [if_pos ho, if_pos ho]
      · rw [if_neg ho, if_neg ho, if_neg (Ne.symm ho)]
    · rw [List.filter_cons_of_pos (by simpa using hk), get?, get?, ih]
      by_cases hko : k = other
      · subst hko
        rw [if_pos rfl, if_pos rfl, if_neg hk]
      · rw [if_neg hko, if_neg hko]

theorem length_set_of_notMem (d : Dict α) (key : String) (v : α) (h : d.get? key = .none) :
    (d.set key v).length = d.length + 1 := by
  induction d with
  | nil => rfl
  | cons e rest ih =>
    obtain ⟨k, w⟩ := e
    unfold get? at h
    split at h
    · cases h
    · next hne => rw [set, if_neg hne, List.length_cons, ih h, List.length_cons]

theorem length_pop (d : Dict α) (key : String) (v : α) (hnodup : d.keys.Nodup) (h : d.get? key = some v) :
    (d.pop key).length + 1 = d.length := by
  induction d with
  | nil => cases h
  | cons e rest ih =>
    obtain ⟨k, w⟩ := e
    obtain ⟨hnot, hrest⟩ := List.nodup_cons.mp hnodup
    unfold pop
    by_cases hk : k = key
    · subst hk
      have hall : rest.filter (fun e => e.1 ≠ k) = rest := by
        rw [List.filter_eq_self]
        intro e he
        exact decide_eq_true fun heq => hnot (List.mem_map.mpr ⟨e, he, heq⟩)
      rw [List.filter_cons_of_neg (by simp), hall, List.length_cons]
    · rw [get?, if_neg hk] at h
      rw [List.filter_cons_of_pos (by simpa using hk), List.length_cons, List.length_cons]
      exact congrArg (· + 1) (ih hrest h)

/-- `d.update(entries)`, one entry after the other. -/
def setAll (d : Dict α) (entries : List (String × α)) : Dict α :=
  entries.foldl (fun d e => d.set e.1 e.2) d

@[simp] theorem setAll_nil (d : Dict α) : d.setAll [] = d := rfl

@[simp] theorem setAll_cons (d : Dict α) (e : String × α) (rest : List (String × α)) :
    d.setAll (e :: rest) = (d.set e.1 e.2).setAll rest := rfl

theorem setAll_append (d : Dict α) (xs ys : List (String × α)) : d.setAll (xs ++ ys) = (d.setAll xs).setAll ys :=
  List.foldl_append

theorem get?_setAll_of_notMem (d : Dict α) (entries : List (String × α)) (key : String)
    (h : key ∉ entries.map (·.1)) : (d.setAll entries).get? key = d.get? key := by
  induction entries generalizing d with
  | nil => rfl
  | cons e rest ih =>
    rw [List.map_cons, List.mem_cons, not_or] at h
    rw [setAll_cons, ih _ h.2, get?_set_of_ne _ _ _ _ h.1]

theorem get?_setAll_of_mem (d : Dict α) (entries : List (String × α)) (key : String) (v : α)
    (hnodup : (entries.map (·.1)).Nodup) (h : (key, v) ∈ entries) : (d.setAll entries).get? key = some v := by
  induction entries generalizing d with
  | nil => exact absurd h List.not_mem_nil
  | cons e rest ih =>
    rw [List.map_cons, List.nodup_cons] at hnodup
    rcases List.mem_cons.mp h with rfl | h
    · rw [setAll_cons, get?_setAll_of_notMem _ _ _ hnodup.1, get?_set_self]
    · exact ih _ hnodup.2 h

theorem isSome_get?_setAll (d : Dict α) (entries : List (String × α)) (key : String) :
    ((d.setAll entries).get? key).isSome ↔ (d.get? key).isSome ∨ key ∈ entries.map (·.1) := by
  induction entries generalizing d with
  | nil => simp
  | cons e rest ih =>
    rw [setAll_cons, ih, get?_set, List.map_cons, List.mem_cons]
    by_cases h : key = e.1 <;> simp [h]

theorem nodup_keys_setAll (d : Dict α) (entries : List (String × α)) (h : d.keys.Nodup) :
    (d.setAll entries).keys.Nodup := by
  induction entries generalizing d with
  | nil => exact h
  | cons e rest ih => exact ih (d.set e.1 e.2) (nodup_keys_set d e.1 e.2 h)

theorem mem_of_get? {d : Dict α} {key : String} {v : α} (h : d.get? key = some v) : (key, v) ∈ d := by
  induction d with
  | nil => cases h
  | cons e rest ih =>
    obtain ⟨k, w⟩ := e
    unfold get? at h
    split at h
    · next hk =>
      cases h
      rw [hk]
      exact List.mem_cons_self
    · exact List.mem_cons_of_mem _ (ih h)

theorem set_of_get? {d : Dict α} {key : String} {v : α} (h : d.get? key = some v) : d.set key v = d := by
  induction d with
  | nil => cases h
  | cons e rest ih =>
    obtain ⟨k, w⟩ := e
    unfold Dict.get? at h
    unfold Dict.set
    split at h
    · next hk =>
      cases h
      rw [if_pos hk, hk]
    · next hk => rw [if_neg hk, ih h]

theorem mem_set {d : Dict α} {key : String} {v : α} {e : String × α} (h : e ∈ d.set key v) : e = (key, v) ∨ e ∈ d := by
  induction d with
  | nil => exact .inl (List.mem_singleton.mp h)
  | cons first rest ih =>
    obtain ⟨k, w⟩ := first
    rw [set] at h
    split at h
    · next hk =>
      rcases List.mem_cons.mp h with rfl | h
      · exact .inl (by rw [hk])
      · exact .inr (List.mem_cons_of_mem _ h)
    · rcases List.mem_cons.mp h with rfl | h
      · exact .inr List.mem_cons_self
      · exact (ih h).imp_right (List.mem_cons_of_mem _)

theorem mem_setAll {d : Dict α} {entries : List (String × α)} {e : String × α} (h : e ∈ d.setAll entries) :
    e ∈ d ∨ e ∈ entries := by
  induction entries generalizing d with
  | nil => exact .inl h
  | cons first rest ih =>
    rcases ih h with h | h
    · rcases mem_set h with rfl | h
      · exact .inr List.mem_cons_self
      · exact .inl h
    · exact .inr (List.mem_cons_of_mem first h)

/-- Where no key is set to two values, what was set is there. -/
theorem mem_setAll_iff {entries : List (String × α)}
    (hone : ∀ k v v', (k, v) ∈ entries → (k, v') ∈ entries → v = v') (e : String × α) :
    e ∈ setAll [] entries ↔ e ∈ entries := by
  constructor
  · intro h
    exact (mem_setAll h).resolve_left (by simp)
  · intro h
    obtain ⟨key, v⟩ := e
    have hsome := (isSome_get?_setAll [] entries key).mpr (.inr (List.mem_map_of_mem h))
    obtain ⟨v', hv'⟩ := Option.isSome_iff_exists.mp hsome
    have hin := (mem_iff_get? _ (nodup_keys_setAll [] entries List.nodup_nil) key v').mpr hv'
    rw [hone key v v' h ((mem_setAll hin).resolve_left (by simp))]
    exact hin

/-- Two dictionaries with the same entries still have them after the same updates. -/
theorem get?_setAll_congr {d d' : Dict α} (h : ∀ key, d.get? key = d'.get? key) (entries : List (String × α))
    (key : String) : (d.setAll entries).get? key = (d'.setAll entries).get? key := by
  induction entries generalizing d d' with
  | nil => exact h key
  | cons e rest ih =>
    refine ih fun other => ?_
    rw [get?_set, get?_set, h other]

end Dict

namespace Value

/-- `type(v).__name__`. -/
def typeName : Value → String
  | .none => "NoneType"
  | .bool _ => "bool"
  | .int _ => "int"
  | .float _ => "float"
  | .str _ => "str"
  | .list _ => "list"
  | .dict _ => "dict"

/-- The number that a value compares as: `True == 1 == 1.0`. -/
def num? : Value → Option Rat
  | .bool b => some (if b then 1 else 0)
  | .int n => some n
  | .float q => some q
  | _ => Option.none

mutual

/-- Python's `==`. Lists compare in order, dictionaries by key. -/
def pyEq : Value → Value → Bool
  | .none, .none => true
  | .str a, .str b => a == b
  | .list a, .list b => pyEqList a b
  | .dict a, .dict b => a.length == b.length && pyEqEntries a b
  | .bool a, b => b.num? == some (if a then 1 else 0)
  | .int a, b => b.num? == some (a : Rat)
  | .float a, b => b.num? == some a
  | _, _ => false

def pyEqList : List Value → List Value → Bool
  | [], [] => true
  | a :: as, b :: bs => pyEq a b && pyEqList as bs
  | _, _ => false

def pyEqEntries : List (String × Value) → List (String × Value) → Bool
  | [], _ => true
  | (k, v) :: rest, b =>
    (match Dict.get? b k with
      | some w => pyEq v w
      | Option.none => false) && pyEqEntries rest b

end

/-- Python's truth value, as `or` and `if` use it. -/
def truthy : Value → Bool
  | .none => false
  | .bool b => b
  | .int n => n != 0
  | .float q => q != 0
  | .str s => s != ""
  | .list items => !items.isEmpty
  | .dict entries => !entries.isEmpty

end Value

example : (Value.dict [("a", .int 1), ("b", .bool true)]).pyEq (.dict [("b", .int 1), ("a", .int 1)]) = true := by
  decide

end Occp
