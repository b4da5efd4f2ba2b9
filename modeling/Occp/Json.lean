import Occp.Lib.Regex
import Occp.Value

/-!
# JSON text (`json.dumps`)

With the defaults: ASCII only, a blank after commas and colons, keys in their order. `floatText`
is what Python writes for a float.
-/

namespace Occp.Json

/-- The four digits of a code unit. -/
def unitEscape (n : Nat) : List Char :=
  '\\' :: 'u' :: [4096, 256, 16, 1].map fun unit => Nat.digitChar (n / unit % 16)

/-- What stands for a character between quotes; two code units from U+10000 on. -/
def escape (c : Char) : List Char :=
  if c = '"' ∨ c = '\\' then ['\\', c]
  else if c = '\n' then ['\\', 'n']
  else if c = '\r' then ['\\', 'r']
  else if c = '\t' then ['\\', 't']
  else if c.toNat = 12 then ['\\', 'f']
  else if c.toNat = 8 then ['\\', 'b']
  else if 32 ≤ c.toNat ∧ c.toNat < 127 then [c]
  else if c.toNat < 0x10000 then unitEscape c.toNat
  else unitEscape (0xD800 + (c.toNat - 0x10000) / 0x400) ++ unitEscape (0xDC00 + (c.toNat - 0x10000) % 0x400)

def dumpsString (s : String) : List Char := '"' :: s.toList.flatMap escape ++ ['"']

mutual

/-- `json.dumps`. -/
def dumps (floatText : Rat → String) : Value → List Char
  | .none => "null".toList
  | .bool b => (if b then "true" else "false").toList
  | .int n => (toString n).toList
  | .float q => (floatText q).toList
  | .str s => dumpsString s
  | .list items => '[' :: [',', ' '].intercalate (dumpsItems floatText items) ++ [']']
  | .dict entries => '\x7b' :: [',', ' '].intercalate (dumpsEntries floatText entries) ++ ['\x7d']

def dumpsItems (floatText : Rat → String) : List Value → List (List Char)
  | [] => []
  | v :: rest => dumps floatText v :: dumpsItems floatText rest

def dumpsEntries (floatText : Rat → String) : List (String × Value) → List (List Char)
  | [] => []
  | (key, v) :: rest => (dumpsString key ++ ':' :: ' ' :: dumps floatText v) :: dumpsEntries floatText rest

end

mutual

/-- `json.dumps` with `separators=(",", ":")`. -/
def compact (floatText : Rat → String) : Value → List Char
  | .none => "null".toList
  | .bool b => (if b then "true" else "false").toList
  | .int n => (toString n).toList
  | .float q => (floatText q).toList
  | .str s => dumpsString s
  | .list items => '[' :: [','].intercalate (compactItems floatText items) ++ [']']
  | .dict entries => '\x7b' :: [','].intercalate (compactEntries floatText entries) ++ ['\x7d']

def compactItems (floatText : Rat → String) : List Value → List (List Char)
  | [] => []
  | v :: rest => compact floatText v :: compactItems floatText rest

def compactEntries (floatText : Rat → String) : List (String × Value) → List (List Char)
  | [] => []
  | (key, v) :: rest => (dumpsString key ++ ':' :: compact floatText v) :: compactEntries floatText rest

end

example : String.ofList (dumps (fun _ => "") (.dict [("b", .list [.int (-1), .none]), ("a", .str "x\"\u00e9")])) =
    "\x7b\"b\": [-1, null], \"a\": \"x\\\"\\u00e9\"\x7d" := by
  decide +kernel

variable (floatText : Rat → String)

theorem dumpsItems_eq (items : List Value) : dumpsItems floatText items = items.map (dumps floatText) := by
  induction items with
  | nil => rfl
  | cons v items ih => rw [dumpsItems, ih, List.map_cons]

theorem dumpsEntries_eq (entries : Dict Value) :
    dumpsEntries floatText entries = entries.map fun e => dumpsString e.1 ++ ':' :: ' ' :: dumps floatText e.2 := by
  induction entries with
  | nil => rfl
  | cons e entries ih => rw [dumpsEntries, ih, List.map_cons]

theorem compactEntries_eq (entries : Dict Value) :
    compactEntries floatText entries = entries.map fun e => dumpsString e.1 ++ ':' :: compact floatText e.2 := by
  induction entries with
  | nil => rfl
  | cons e entries ih => rw [compactEntries, ih, List.map_cons]

/-! ## Strings in a value -/

/-- A string of the value: itself, an item's, an entry's, or a key. -/
inductive Inside (s : String) : Value → Prop
  | here : Inside s (.str s)
  | item {items : List Value} {v : Value} (hv : v ∈ items) (hs : Inside s v) : Inside s (.list items)
  | entry {entries : Dict Value} {key : String} {v : Value} (hv : (key, v) ∈ entries) (hs : Inside s v) :
      Inside s (.dict entries)
  | key {entries : Dict Value} {v : Value} (hv : (s, v) ∈ entries) : Inside s (.dict entries)

theorem infix_intercalate {α : Type} (sep : List α) {text : List α} {texts : List (List α)} (h : text ∈ texts) :
    text <:+: sep.intercalate texts := by
  obtain ⟨before, after, rfl⟩ := List.append_of_mem h
  exact ⟨Lib.Regex.lead sep before, Lib.Regex.trail sep after, (Lib.Regex.intercalate_split sep text before after).symm⟩

theorem infix_bracketed {α : Type} {text inner : List α} (first last : α) (h : text <:+: inner) :
    text <:+: first :: inner ++ [last] := by
  obtain ⟨before, after, rfl⟩ := h
  exact ⟨first :: before, after ++ [last], by simp⟩

theorem dumpsString_infix {s : String} {v : Value} (h : Inside s v) : dumpsString s <:+: dumps floatText v := by
  induction h with
  | here => exact List.infix_rfl
  | @item items v hv hs ih =>
    rw [dumps, dumpsItems_eq]
    exact infix_bracketed _ _ (ih.trans (infix_intercalate _ (List.mem_map_of_mem hv)))
  | @entry entries key v hv hs ih =>
    rw [dumps, dumpsEntries_eq]
    refine infix_bracketed _ _ (List.IsInfix.trans ?_ (infix_intercalate _ (List.mem_map_of_mem hv)))
    exact ih.trans ⟨dumpsString key ++ [':', ' '], [], by simp⟩
  | @key entries v hv =>
    rw [dumps, dumpsEntries_eq]
    refine infix_bracketed _ _ (List.IsInfix.trans ?_ (infix_intercalate _ (List.mem_map_of_mem hv)))
    exact (List.prefix_append _ _).isInfix

def plain (c : Char) : Bool := 32 ≤ c.toNat && c.toNat < 127 && c != '"' && c != '\\'

theorem escape_plain {c : Char} (h : plain c = true) : escape c = [c] := by
  simp only [plain, Bool.and_eq_true, decide_eq_true_eq, bne_iff_ne] at h
  obtain ⟨⟨⟨hlow, hhigh⟩, hquote⟩, hslash⟩ := h
  have hne {n : Nat} (hn : n < 32) : c.toNat ≠ n := by omega
  have hchar {d : Char} (hd : d.toNat < 32) : c ≠ d := fun heq => hne hd (congrArg Char.toNat heq)
  unfold escape
  rw [if_neg (by simp [hquote, hslash]), if_neg (hchar (by decide)), if_neg (hchar (by decide)),
    if_neg (hchar (by decide)), if_neg (hne (by decide)), if_neg (hne (by decide)), if_pos ⟨hlow, hhigh⟩]

theorem dumpsString_plain {s : String} (h : s.toList.all plain = true) : dumpsString s = '"' :: s.toList ++ ['"'] := by
  have hflat (cs : List Char) (hcs : ∀ c ∈ cs, plain c = true) : cs.flatMap escape = cs := by
    induction cs with
    | nil => rfl
    | cons c cs ih =>
      rw [List.flatMap_cons, escape_plain (hcs c List.mem_cons_self),
        ih fun d hd => hcs d (List.mem_cons_of_mem c hd)]
      rfl
  rw [dumpsString, hflat s.toList (List.all_eq_true.mp h)]

end Occp.Json
