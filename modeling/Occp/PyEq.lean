import Mathlib.Data.List.Forall2
import Mathlib.Data.List.Perm.Subperm
import Occp.Value

/-!
# Python's `==`

It is transitive, and symmetric on values whose dictionaries have each key once.
-/

namespace Occp

namespace Value

/-- Lists and dictionaries after what they hold. -/
@[elab_as_elim]
theorem induction {P : Value → Prop} (none : P .none) (bool : ∀ b, P (.bool b)) (int : ∀ n, P (.int n))
    (float : ∀ q, P (.float q)) (str : ∀ s, P (.str s)) (list : ∀ items, (∀ v ∈ items, P v) → P (.list items))
    (dict : ∀ entries : List (String × Value), (∀ e ∈ entries, P e.2) → P (.dict entries)) (v : Value) : P v :=
  match v with
  | .none => none
  | .bool b => bool b
  | .int n => int n
  | .float q => float q
  | .str s => str s
  | .list items => list items fun v hv =>
    have := List.sizeOf_lt_of_mem hv
    induction none bool int float str list dict v
  | .dict entries => dict entries fun e he =>
    have := List.sizeOf_lt_of_mem he
    have : sizeOf e.2 < sizeOf e := by
      obtain ⟨key, value⟩ := e
      have hpair := Prod.mk.sizeOf_spec key value
      change sizeOf value < sizeOf (key, value)
      omega
    induction none bool int float str list dict e.2
termination_by sizeOf v

theorem pyEqList_iff (as bs : List Value) : pyEqList as bs = true ↔ List.Forall₂ (fun a b => a.pyEq b = true) as bs := by
  induction as generalizing bs with
  | nil => cases bs <;> simp [pyEqList]
  | cons a as ih => cases bs <;> simp [pyEqList, ih]

theorem pyEqEntries_iff (d e : Dict Value) :
    pyEqEntries d e = true ↔ ∀ p ∈ d, ∃ w, e.get? p.1 = some w ∧ p.2.pyEq w = true := by
  induction d with
  | nil => simp [pyEqEntries]
  | cons p d ih =>
    obtain ⟨key, v⟩ := p
    rw [pyEqEntries, Bool.and_eq_true, ih, List.forall_mem_cons]
    cases e.get? key <;> simp

theorem pyEq_none_iff (b : Value) : pyEq .none b = true ↔ b = .none := by
  cases b <;> simp [pyEq]

theorem pyEq_str_iff (s : String) (b : Value) : pyEq (.str s) b = true ↔ b = .str s := by
  cases b with
  | str s' => simpa [pyEq] using eq_comm
  | _ => simp [pyEq]

theorem pyEq_list_iff (items : List Value) (b : Value) :
    pyEq (.list items) b = true ↔
      ∃ items', b = .list items' ∧ List.Forall₂ (fun v w => v.pyEq w = true) items items' := by
  cases b <;> simp [pyEq, pyEqList_iff]

theorem pyEq_dict_iff (d : Dict Value) (b : Value) :
    pyEq (.dict d) b = true ↔ ∃ e : Dict Value, b = .dict e ∧ d.length = e.length ∧
      ∀ p ∈ d, ∃ w, e.get? p.1 = some w ∧ p.2.pyEq w = true := by
  cases b <;> simp [pyEq, pyEqEntries_iff]

theorem pyEq_iff_of_num {a : Value} {q : Rat} (h : a.num? = some q) (b : Value) :
    a.pyEq b = true ↔ b.num? = some q := by
  cases a <;> simp_all [num?, pyEq]

theorem pyEq_trans {a b c : Value} (hab : a.pyEq b = true) (hbc : b.pyEq c = true) : a.pyEq c = true := by
  have hnum : ∀ {a b c : Value} {q : Rat}, a.num? = some q → a.pyEq b = true → b.pyEq c = true → a.pyEq c = true := by
    intro a b c q hq hab hbc
    have hb := (pyEq_iff_of_num hq b).mp hab
    exact (pyEq_iff_of_num hq c).mpr ((pyEq_iff_of_num hb c).mp hbc)
  induction a using Value.induction generalizing b c with
  | none =>
    obtain rfl := (pyEq_none_iff b).mp hab
    exact hbc
  | bool x => exact hnum rfl hab hbc
  | int n => exact hnum rfl hab hbc
  | float q => exact hnum rfl hab hbc
  | str s =>
    obtain rfl := (pyEq_str_iff s b).mp hab
    exact hbc
  | list items ih =>
    obtain ⟨items', rfl, hall⟩ := (pyEq_list_iff items b).mp hab
    obtain ⟨items'', rfl, hall'⟩ := (pyEq_list_iff items' c).mp hbc
    refine (pyEq_list_iff _ _).mpr ⟨items'', rfl, ?_⟩
    clear hab hbc
    induction hall generalizing items'' with
    | nil =>
      cases hall'
      exact .nil
    | @cons v w rest rest' hv hrest ihrest =>
      cases hall' with | cons hw hrest' =>
      exact .cons (ih v (by simp) hv hw) (ihrest (fun u hu => ih u (List.mem_cons_of_mem _ hu)) _ hrest')
  | dict entries ih =>
    obtain ⟨d', rfl, hlen, hab⟩ := (pyEq_dict_iff entries b).mp hab
    obtain ⟨d'', rfl, hlen', hbc⟩ := (pyEq_dict_iff d' c).mp hbc
    refine (pyEq_dict_iff _ _).mpr ⟨d'', rfl, hlen.trans hlen', fun p hp => ?_⟩
    obtain ⟨w, hw, hpw⟩ := hab p hp
    obtain ⟨x, hx, hwx⟩ := hbc (p.1, w) (Dict.mem_of_get? hw)
    exact ⟨x, hx, ih p hp hpw hwx⟩

/-- Each dictionary in the value has each key once. -/
inductive WellFormed : Value → Prop where
  | none : WellFormed .none
  | bool (b : Bool) : WellFormed (.bool b)
  | int (n : Int) : WellFormed (.int n)
  | float (q : Rat) : WellFormed (.float q)
  | str (s : String) : WellFormed (.str s)
  | list {items : List Value} (h : ∀ v ∈ items, WellFormed v) : WellFormed (.list items)
  | dict {entries : List (String × Value)} (hkeys : (Dict.keys entries).Nodup) (h : ∀ e ∈ entries, WellFormed e.2) :
    WellFormed (.dict entries)

theorem pyEq_refl {a : Value} (h : WellFormed a) : a.pyEq a = true := by
  induction a using Value.induction with
  | none => rfl
  | bool b => simp [pyEq, num?]
  | int n => simp [pyEq, num?]
  | float q => simp [pyEq, num?]
  | str s => simp [pyEq]
  | list items ih =>
    cases h with | list hvalues =>
    exact (pyEq_list_iff _ _).mpr ⟨items, rfl, List.forall₂_same.mpr fun v hv => ih v hv (hvalues v hv)⟩
  | dict entries ih =>
    cases h with | dict hkeys hvalues =>
    refine (pyEq_dict_iff _ _).mpr ⟨entries, rfl, rfl, fun e he => ⟨e.2, ?_, ih e he (hvalues e he)⟩⟩
    exact (Dict.mem_iff_get? entries hkeys e.1 e.2).mp he

theorem eq_str_of_pyEq {v : Value} {s : String} (h : v.pyEq (.str s) = true) : v = .str s := by
  cases v with
  | str s' => rw [beq_iff_eq.mp h]
  | _ => simp [pyEq, num?] at h

theorem eq_list_of_pyEq {v : Value} {items : List Value} (h : v.pyEq (.list items) = true) :
    ∃ items', v = .list items' ∧ List.Forall₂ (fun v w => v.pyEq w = true) items' items := by
  cases v with
  | list items' => exact ⟨items', rfl, (pyEqList_iff _ _).mp h⟩
  | _ => simp [pyEq, num?] at h

/-- Keys that are all in a dictionary of the same size are all of its keys. -/
theorem keys_subset_of_length {d e : Dict Value} (hkeys : d.keys.Nodup) (hsub : d.keys ⊆ e.keys)
    (hlen : d.length = e.length) : e.keys ⊆ d.keys := by
  have hperm := (hkeys.subperm hsub).perm_of_length_le (by simp [Dict.keys, hlen])
  exact hperm.symm.subset

theorem pyEq_symm {a b : Value} (ha : WellFormed a) (hb : WellFormed b) (h : a.pyEq b = true) : b.pyEq a = true := by
  have hnum : ∀ {a b : Value} {q : Rat}, a.num? = some q → a.pyEq b = true → b.pyEq a = true := by
    intro a b q hq hab
    exact (pyEq_iff_of_num ((pyEq_iff_of_num hq b).mp hab) a).mpr hq
  induction a using Value.induction generalizing b with
  | none =>
    obtain rfl := (pyEq_none_iff b).mp h
    exact h
  | bool x => exact hnum rfl h
  | int n => exact hnum rfl h
  | float q => exact hnum rfl h
  | str s =>
    obtain rfl := (pyEq_str_iff s b).mp h
    exact h
  | list items ih =>
    obtain ⟨items', rfl, hall⟩ := (pyEq_list_iff items b).mp h
    cases ha with | list hvalues =>
    cases hb with | list hvalues' =>
    refine (pyEq_list_iff _ _).mpr ⟨items, rfl, ?_⟩
    clear h
    induction hall with
    | nil => exact .nil
    | @cons v w rest rest' hv hrest ihrest =>
      refine .cons (ih v (by simp) (hvalues v (by simp)) (hvalues' w (by simp)) hv) (ihrest ?_ ?_ ?_)
      · exact fun u hu => ih u (List.mem_cons_of_mem _ hu)
      · exact fun u hu => hvalues u (List.mem_cons_of_mem _ hu)
      · exact fun u hu => hvalues' u (List.mem_cons_of_mem _ hu)
  | dict entries ih =>
    obtain ⟨d', rfl, hlen, h⟩ := (pyEq_dict_iff entries b).mp h
    cases ha with | dict hkeys hvalues =>
    cases hb with | dict hkeys' hvalues' =>
    have hsub : Dict.keys entries ⊆ Dict.keys d' := by
      intro key hkey
      obtain ⟨p, hp, rfl⟩ := List.mem_map.mp hkey
      obtain ⟨w, hw, -⟩ := h p hp
      exact List.mem_map.mpr ⟨(p.1, w), Dict.mem_of_get? hw, rfl⟩
    refine (pyEq_dict_iff _ _).mpr ⟨entries, rfl, hlen.symm, fun p hp => ?_⟩
    obtain ⟨q, hq, hkey⟩ := List.mem_map.mp (keys_subset_of_length hkeys hsub hlen (List.mem_map_of_mem hp))
    obtain ⟨w, hw, hqw⟩ := h q hq
    have hpw : p.2 = w := by
      have := (Dict.mem_iff_get? d' hkeys' p.1 p.2).mp hp
      rw [← hkey, hw] at this
      exact (Option.some_inj.mp this).symm
    refine ⟨q.2, ?_, ?_⟩
    · rw [← hkey]
      exact (Dict.mem_iff_get? entries hkeys q.1 q.2).mp hq
    · exact ih q hq (hvalues q hq) (hvalues' p hp) (by rwa [hpw])

end Value

end Occp
