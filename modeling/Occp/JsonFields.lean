import Occp.JsonLayouts

/-!
# Fields of loaded objects

Values of one type are read; one of another type, which the code would keep as it is, is none. What is sorted is read as
before.
-/

namespace Occp.Json

def readStr : Value → Option String
  | .str s => some s
  | _ => none

def readBool : Value → Option Bool
  | .bool b => some b
  | _ => none

def readDict : Value → Option (Dict Value)
  | .dict entries => some entries
  | _ => none

@[simp] theorem readStr_str (s : String) : readStr (.str s) = some s := rfl

@[simp] theorem readDict_dict (entries : Dict Value) : readDict (.dict entries) = some entries := rfl

def readStrs : Value → Option (List String)
  | .list items => items.mapM readStr
  | _ => none

/-- `data.get(key)`: nothing where the key is missing, a failure where the value has another type. -/
def optionalField {α : Type} (read : Value → Option α) (data : Dict Value) (key : String) : Option (Option α) :=
  match data.get? key with
  | some v => (read v).map some
  | none => some none

/-- `data.get(key, default)`. -/
def fieldOr {α : Type} (read : Value → Option α) (data : Dict Value) (key : String) (default : α) : Option α :=
  match data.get? key with
  | some v => read v
  | none => some default

/-- `data[key]`. -/
def requiredField {α : Type} (read : Value → Option α) (data : Dict Value) (key : String) : Option α :=
  (data.get? key).bind read

/-- An entry that is written unless the text is empty. -/
def entryIf (key text : String) (v : Value) : Dict Value := if text = "" then [] else [(key, v)]

theorem get?_append {α : Type} (d d' : Dict α) (key : String) : Dict.get? (d ++ d') key = (d.get? key).or (d'.get? key) := by
  induction d with
  | nil => rfl
  | cons e d ih =>
    rw [List.cons_append, Dict.get?, Dict.get?]
    split
    · rfl
    · exact ih

theorem get?_entryIf (key text : String) (v : Value) (other : String) :
    Dict.get? (entryIf key text v) other = if text ≠ "" ∧ key = other then some v else none := by
  unfold entryIf
  by_cases htext : text = "" <;> simp [htext, Dict.get?]

theorem keys_entryIf (key text : String) (v : Value) : (Dict.keys (entryIf key text v)).Sublist [key] := by
  unfold entryIf
  split
  · exact List.nil_sublist _
  · exact List.Sublist.refl _

theorem forall_mem_entryIf {p : String × Value → Prop} {key : String} (text : String) {v : Value} (h : p (key, v)) :
    ∀ e ∈ entryIf key text v, p e := by
  unfold entryIf
  split
  · nofun
  · exact List.forall_mem_singleton.mpr h

/-! ## Sorted keys -/

section Fields

variable {α : Type} (read : Value → Option α) {entries : Dict Value}

theorem requiredField_sorted (h : entries.keys.Nodup) (key : String) :
    requiredField read (entries.sorted.map fun e => (e.1, sortKeys e.2)) key =
      requiredField (fun v => read (sortKeys v)) entries key := by
  rw [requiredField, requiredField, get?_sortKeys h]
  cases entries.get? key <;> rfl

theorem optionalField_sorted (h : entries.keys.Nodup) (key : String) :
    optionalField read (entries.sorted.map fun e => (e.1, sortKeys e.2)) key =
      optionalField (fun v => read (sortKeys v)) entries key := by
  rw [optionalField, optionalField, get?_sortKeys h]
  cases entries.get? key <;> rfl

theorem fieldOr_sorted (h : entries.keys.Nodup) (key : String) (default : α) :
    fieldOr read (entries.sorted.map fun e => (e.1, sortKeys e.2)) key default =
      fieldOr (fun v => read (sortKeys v)) entries key default := by
  rw [fieldOr, fieldOr, get?_sortKeys h]
  cases entries.get? key <;> rfl

end Fields

theorem readStrs_map (items : List String) : readStrs (sortKeys (.list (items.map .str))) = some items := by
  rw [sortKeys_list, List.map_map]
  exact Lib.mapM_map_eq_some fun _ _ => rfl

end Occp.Json
