import Mathlib.Data.List.Sort
import Mathlib.Data.String.Basic
import Occp.JsonLoads
import Occp.PyEq

/-!
# Writing JSON text (`json.dumps`)

The layouts that the source uses differ in blanks only. What is written in one of them is loaded again, where the floats
are.
-/

namespace Occp

namespace Dict

variable {α : Type}

theorem set_of_notMem {d : Dict α} {key : String} (h : key ∉ d.keys) (v : α) : d.set key v = d ++ [(key, v)] := by
  induction d with
  | nil => rfl
  | cons e rest ih =>
    have hne : e.1 ≠ key := fun heq => h (heq ▸ List.mem_cons_self)
    have hrest : key ∉ keys rest := fun hkey => h (List.mem_cons_of_mem _ hkey)
    rw [set, if_neg hne, ih hrest]
    rfl

/-- New entries are put behind those that are there. -/
theorem setAll_of_nodup {d entries : Dict α} (h : (keys (d ++ entries)).Nodup) : d.setAll entries = d ++ entries := by
  induction entries generalizing d with
  | nil => rw [setAll_nil, List.append_nil]
  | cons e entries ih =>
    have hnew : e.1 ∉ d.keys := by
      intro hkey
      rw [keys, List.map_append, List.nodup_append] at h
      exact h.2.2 e.1 hkey e.1 List.mem_cons_self rfl
    rw [setAll_cons, set_of_notMem hnew, ih (by simpa [keys] using h), List.append_assoc]
    rfl

/-- `sorted(d.items())`, by the keys. -/
def sorted (d : Dict α) : Dict α := d.insertionSort fun a b => a.1 ≤ b.1

theorem sorted_perm (d : Dict α) : d.sorted.Perm d := List.perm_insertionSort _ d

/-- With each key once, one order is left. -/
theorem mergeSort_eq_sorted {d : Dict α} (h : d.keys.Nodup) : d.mergeSort (fun a b => a.1 ≤ b.1) = d.sorted := by
  have htotal : Std.Total fun a b : String × α => a.1 ≤ b.1 := ⟨fun a b => le_total a.1 b.1⟩
  have htrans : IsTrans (String × α) fun a b => a.1 ≤ b.1 := ⟨fun _ _ _ => le_trans⟩
  have hmerge : (d.mergeSort fun a b => a.1 ≤ b.1).Pairwise fun a b => a.1 ≤ b.1 := List.pairwise_mergeSort' _ d
  have hsorted : d.sorted.Pairwise fun a b => a.1 ≤ b.1 := List.pairwise_insertionSort _ d
  refine List.Perm.eq_of_pairwise ?_ hmerge hsorted ((List.mergeSort_perm d _).trans d.sorted_perm.symm)
  intro a b ha hb hab hba
  have hkey : a.1 = b.1 := le_antisymm hab hba
  have ha' := List.mem_mergeSort.mp ha
  have hb' := d.sorted_perm.mem_iff.mp hb
  have hvalue := (mem_iff_get? d h a.1 a.2).mp ha'
  rw [hkey, (mem_iff_get? d h b.1 b.2).mp hb'] at hvalue
  exact Prod.ext hkey (Option.some.inj hvalue).symm

theorem nodup_keys_sorted {d : Dict α} (h : d.keys.Nodup) : d.sorted.keys.Nodup :=
  (d.sorted_perm.map _).nodup_iff.mpr h

theorem get?_of_perm {d d' : Dict α} (hperm : d.Perm d') (h : d.keys.Nodup) (key : String) : d.get? key = d'.get? key := by
  have h' : d'.keys.Nodup := (hperm.map _).nodup_iff.mp h
  refine Option.ext fun v => ?_
  rw [← mem_iff_get? d h, ← mem_iff_get? d' h', hperm.mem_iff]

theorem get?_sorted {d : Dict α} (h : d.keys.Nodup) (key : String) : d.sorted.get? key = d.get? key :=
  get?_of_perm d.sorted_perm (nodup_keys_sorted h) key

theorem sorted_map {β : Type} (f : α → β) (d : Dict α) :
    sorted (d.map fun e => (e.1, f e.2)) = d.sorted.map fun e => (e.1, f e.2) := by
  exact (List.map_insertionSort (fun a b : String × α => a.1 ≤ b.1) (fun a b : String × β => a.1 ≤ b.1)
    (fun e => (e.1, f e.2)) d fun _ _ _ _ => Iff.rfl).symm

end Dict

namespace Json

open Lib.Sequences
open Lib.Numerals (Token Stops)

/-- The blanks in a container at a depth: behind its bracket, behind a comma, and before its last bracket. -/
structure Layout where
  opening : Nat → List Char
  gap : Nat → List Char
  closing : Nat → List Char
  colon : List Char
  opening_blank : ∀ d, ∀ c ∈ opening d, isBlank c = true
  gap_blank : ∀ d, ∀ c ∈ gap d, isBlank c = true
  closing_blank : ∀ d, ∀ c ∈ closing d, isBlank c = true
  colon_blank : ∀ c ∈ colon, isBlank c = true

namespace Layout

/-- The default of `json.dumps`. -/
def default : Layout where
  opening _ := []
  gap _ := [' ']
  closing _ := []
  colon := [' ']
  opening_blank _ := nofun
  gap_blank _ := List.forall_mem_singleton.mpr rfl
  closing_blank _ := nofun
  colon_blank := List.forall_mem_singleton.mpr rfl

/-- `separators=(",", ":")`. -/
def compact : Layout where
  opening _ := []
  gap _ := []
  closing _ := []
  colon := []
  opening_blank _ := nofun
  gap_blank _ := nofun
  closing_blank _ := nofun
  colon_blank := nofun

def newline (width depth : Nat) : List Char := '\n' :: List.replicate (width * depth) ' '

theorem newline_blank (width depth : Nat) : ∀ c ∈ newline width depth, isBlank c = true := by
  intro c hc
  rcases List.mem_cons.mp hc with rfl | hc
  · decide
  · rw [List.eq_of_mem_replicate hc]
    decide

/-- `indent=width`. -/
def indent (width : Nat) : Layout where
  opening d := newline width (d + 1)
  gap d := newline width (d + 1)
  closing d := newline width d
  colon := [' ']
  opening_blank d := newline_blank width (d + 1)
  gap_blank d := newline_blank width (d + 1)
  closing_blank d := newline_blank width d
  colon_blank := List.forall_mem_singleton.mpr rfl

end Layout

variable (L : Layout) (floatText : Rat → String)

mutual

/-- A value at a depth. -/
def write (depth : Nat) : Value → List Char
  | .none => "null".toList
  | .bool b => (if b then "true" else "false").toList
  | .int n => (toString n).toList
  | .float q => (floatText q).toList
  | .str s => dumpsString s
  | .list [] => ['[', ']']
  | .list (v :: items) =>
    '[' :: L.opening depth ++ (',' :: L.gap depth).intercalate (writeItems (depth + 1) (v :: items)) ++ L.closing depth ++ [']']
  | .dict [] => ['\x7b', '\x7d']
  | .dict (e :: entries) =>
    '\x7b' :: L.opening depth ++ (',' :: L.gap depth).intercalate (writeEntries (depth + 1) (e :: entries)) ++ L.closing depth ++
      ['\x7d']

def writeItems (depth : Nat) : List Value → List (List Char)
  | [] => []
  | v :: rest => write depth v :: writeItems depth rest

def writeEntries (depth : Nat) : List (String × Value) → List (List Char)
  | [] => []
  | (key, v) :: rest => (dumpsString key ++ ':' :: L.colon ++ write depth v) :: writeEntries depth rest

end

theorem writeItems_eq (depth : Nat) (items : List Value) :
    writeItems L floatText depth items = items.map (write L floatText depth) := by
  induction items with
  | nil => rfl
  | cons v items ih => rw [writeItems, ih, List.map_cons]

def entryText (depth : Nat) (e : String × Value) : List Char :=
  dumpsString e.1 ++ ':' :: L.colon ++ write L floatText depth e.2

theorem writeEntries_eq (depth : Nat) (entries : Dict Value) :
    writeEntries L floatText depth entries = entries.map (entryText L floatText depth) := by
  induction entries with
  | nil => rfl
  | cons e entries ih => rw [writeEntries, ih, List.map_cons, entryText]

/-- The default layout is that of `dumps`. -/
theorem write_default (depth : Nat) (v : Value) : write .default floatText depth v = dumps floatText v := by
  induction v using Value.induction generalizing depth with
  | none => rfl
  | bool b => rfl
  | int n => rfl
  | float q => rfl
  | str s => rfl
  | list items ih =>
    cases items with
    | nil => rfl
    | cons v items =>
      have hitems : writeItems .default floatText (depth + 1) (v :: items) = dumpsItems floatText (v :: items) := by
        rw [writeItems_eq, dumpsItems_eq]
        exact List.map_congr_left fun w hw => ih w hw (depth + 1)
      rw [write, hitems, dumps]
      simp [Layout.default]
  | dict entries ih =>
    cases entries with
    | nil => rfl
    | cons e entries =>
      have hentries : writeEntries .default floatText (depth + 1) (e :: entries) = dumpsEntries floatText (e :: entries) := by
        rw [writeEntries_eq, dumpsEntries_eq]
        refine List.map_congr_left fun f hf => ?_
        rw [entryText, ih f hf (depth + 1)]
        simp [Layout.default]
      rw [write, hentries, dumps]
      simp [Layout.default]

theorem compactItems_eq (items : List Value) : compactItems floatText items = items.map (compact floatText) := by
  induction items with
  | nil => rfl
  | cons v items ih => rw [compactItems, ih, List.map_cons]

theorem write_compact (depth : Nat) (v : Value) : write .compact floatText depth v = compact floatText v := by
  induction v using Value.induction generalizing depth with
  | none => rfl
  | bool b => rfl
  | int n => rfl
  | float q => rfl
  | str s => rfl
  | list items ih =>
    cases items with
    | nil => rfl
    | cons v items =>
      have hitems : writeItems .compact floatText (depth + 1) (v :: items) = compactItems floatText (v :: items) := by
        rw [writeItems_eq, compactItems_eq]
        exact List.map_congr_left fun w hw => ih w hw (depth + 1)
      rw [write, hitems, compact]
      simp [Layout.compact]
  | dict entries ih =>
    cases entries with
    | nil => rfl
    | cons e entries =>
      have hentries : writeEntries .compact floatText (depth + 1) (e :: entries) = compactEntries floatText (e :: entries) := by
        rw [writeEntries_eq, compactEntries_eq]
        refine List.map_congr_left fun f hf => ?_
        rw [entryText, ih f hf (depth + 1)]
        simp [Layout.compact]
      rw [write, hentries, compact]
      simp [Layout.compact]

/-! ## What is written is in the grammar -/

/-- Python reads the float again from its text. -/
structure Floats.Reads (F : Floats) (q : Rat) : Prop where
  text : Lib.Numerals.read (F.text q).toList = some (⟨(F.text q).toList, true⟩, [])
  value : F.value (F.text q).toList = q

/-- Each dictionary in the value has each key once, and its floats are read again. -/
inductive Readable (F : Floats) : Value → Prop where
  | none : Readable F .none
  | bool (b : Bool) : Readable F (.bool b)
  | int (n : Int) : Readable F (.int n)
  | float {q : Rat} (h : F.Reads q) : Readable F (.float q)
  | str (s : String) : Readable F (.str s)
  | list {items : List Value} (h : ∀ v ∈ items, Readable F v) : Readable F (.list items)
  | dict {entries : List (String × Value)} (hkeys : (Dict.keys entries).Nodup) (h : ∀ e ∈ entries, Readable F e.2) :
    Readable F (.dict entries)

/-- Floats without a fraction. -/
def wholeFloats : Floats where
  text q := toString q.num ++ ".0"
  value cs := (integer (cs.takeWhile (· ≠ '.')) : Rat)

example : wholeFloats.Reads 67 := ⟨by decide +kernel, by decide +kernel⟩

variable {F : Floats}

theorem head_toDigits (n : Nat) (h : (Nat.toDigits 10 n).head? = some '0') : Nat.toDigits 10 n = ['0'] := by
  induction n using Nat.strong_induction_on with
  | _ n ih =>
    by_cases hsmall : n < 10
    · rw [Nat.toDigits_of_lt_base hsmall] at h ⊢
      rw [Option.some.inj h]
    · have hsplit := Nat.toDigits_of_base_le (by decide : 1 < 10) (Nat.not_lt.mp hsmall)
      obtain ⟨d, ds, hdigits⟩ := List.exists_cons_of_ne_nil (Nat.toDigits_ne_nil (n := n / 10) (b := 10))
      have hhead : (Nat.toDigits 10 (n / 10)).head? = some '0' := by
        rw [hsplit, hdigits] at h
        rw [hdigits]
        exact h
      have hzero := ih (n / 10) (by omega) hhead
      have hvalue : n / 10 = 0 := by
        rw [← Nat.ofDigitChars_ten_toDigits (n := n / 10), hzero]
        rfl
      omega

theorem integer_of_digits {ds : List Char} (h : ∀ c ∈ ds, c.isDigit = true) :
    integer ds = (Nat.ofDigitChars 10 ds 0 : Int) := by
  unfold integer
  split
  · exact absurd (h '-' List.mem_cons_self) (by decide)
  · rfl

/-- The numeral of an integer: its sign and its digits. -/
theorem integer_toString (n : Int) :
    ∃ minus : Bool, ∃ ds, (toString n).toList = (if minus then ['-'] else []) ++ ds ∧ ds ≠ [] ∧
      (∀ c ∈ ds, c.isDigit = true) ∧ (ds.head? = some '0' → ds = ['0']) ∧
      integer ((if minus then ['-'] else []) ++ ds) = n := by
  have hdigits (m : Nat) : ∀ c ∈ Nat.toDigits 10 m, c.isDigit = true := fun c hc =>
    Nat.isDigit_of_mem_toDigits (by decide) (by decide) hc
  rw [Int.toString_eq_repr]
  cases n with
  | ofNat m =>
    refine ⟨false, Nat.toDigits 10 m, ?_, Nat.toDigits_ne_nil, hdigits m, head_toDigits m, ?_⟩
    · exact (congrArg String.toList Nat.repr_eq_ofList_toDigits).trans String.toList_ofList
    · rw [if_neg (by decide), List.nil_append, integer_of_digits (hdigits m), Nat.ofDigitChars_ten_toDigits]
      rfl
  | negSucc m =>
    refine ⟨true, Nat.toDigits 10 (m + 1), ?_, Nat.toDigits_ne_nil, hdigits (m + 1), head_toDigits (m + 1), ?_⟩
    · rw [Int.repr, String.toList_append, Nat.repr_eq_ofList_toDigits]
      simp
    · rw [if_pos rfl, List.singleton_append, integer, Nat.ofDigitChars_ten_toDigits]
      rfl

theorem integer_toList (n : Int) : integer (toString n).toList = n := by
  obtain ⟨minus, ds, htext, -, -, -, hvalue⟩ := integer_toString n
  rw [htext, hvalue]

theorem reads_integer (n : Int) : Counted F (.int n) (toString n).toList := by
  obtain ⟨minus, ds, htext, hne, hdigits, hzero, hvalue⟩ := integer_toString n
  have hread : Lib.Numerals.read (toString n).toList = some (⟨(toString n).toList, false⟩, []) := by
    have hnumeral := Lib.Numerals.read_digits hne hdigits hzero minus Lib.Numerals.stops_nil
    rwa [List.append_nil, ← htext] at hnumeral
  have hcounted := (counted_of_read (F := F) hread).2
  have hnumber : number F ⟨(toString n).toList, false⟩ = .int n := by
    rw [number, if_neg (by simp), htext, hvalue]
  rwa [hnumber] at hcounted

theorem reads_float {q : Rat} (h : F.Reads q) : Counted F (.float q) (F.text q).toList := by
  have hcounted := (counted_of_read (F := F) h.text).2
  have hnumber : number F ⟨(F.text q).toList, true⟩ = .float q := by
    rw [number, if_pos rfl, h.value]
  rwa [hnumber] at hcounted

theorem spellsMember_entryText {e : String × Value} {depth : Nat} (h : Spells F e.2 (write L F.text depth e.2)) :
    SpellsMember F e (entryText L F.text depth e) := by
  refine ⟨⟨[], e.1, e.1.toList.flatMap escape ++ ['"'], [], L.colon, e.2, write L F.text depth e.2, []⟩, rfl, ?_, rfl, rfl,
    ⟨quoted_dumpsString e.1, nofun, nofun, L.colon_blank, nofun⟩, h⟩
  simp [Member.chars, entryText, dumpsString]

theorem Spells.head_not_blank {v : Value} {w : List Char} (h : Spells F v w) : ∀ c ∈ w.head?, isBlank c = false := by
  obtain ⟨c, rest, rfl, hblank, -⟩ := h.head
  intro d hd
  cases hd
  exact hblank

/-- A value is spelled by what is written for it. -/
theorem write_spells {v : Value} (h : Readable F v) (depth : Nat) : Spells F v (write L F.text depth v) := by
  induction h generalizing depth with
  | none => exact Spells.literal (show ("null", Value.none) ∈ literals from List.mem_cons_self)
  | bool b =>
    cases b with
    | true => exact Spells.literal (show ("true", Value.bool true) ∈ literals by simp [literals])
    | false => exact Spells.literal (show ("false", Value.bool false) ∈ literals by simp [literals])
  | int n => exact .number (reads_integer n)
  | float h => exact .number (reads_float h)
  | str s => exact .str (quoted_dumpsString s)
  | @list items h ih =>
    cases items with
    | nil =>
      have hgap : ∀ c ∈ ([] : List Char), isBlank c = true := nofun
      exact .emptyList hgap
    | cons v items =>
      obtain ⟨written, hwritten⟩ : ∃ written, written = (v :: items).map fun w => (w, write L F.text (depth + 1) w) := ⟨_, rfl⟩
      have hspell : ∀ e ∈ written, Spells F e.1 e.2 := by
        rw [hwritten]
        exact List.forall_mem_map.mpr fun w hw => ih w hw (depth + 1)
      have hne : written ≠ [] := by simp [hwritten]
      have hparts : ∀ p ∈ pad (L.opening depth) (L.gap depth) (L.closing depth) written,
          (p.value, p.text) ∈ written ∧ p.Padded isBlank := fun p hp =>
        mem_pad (L.opening_blank depth) (L.gap_blank depth) (L.closing_blank depth) (fun e he => (hspell e he).head_not_blank) hp
      have hspells := Spells.list (pad_ne_nil (L.opening depth) (L.gap depth) (L.closing depth) hne)
        (fun p hp => (hparts p hp).2) fun p hp => hspell _ (hparts p hp).1
      have hvalues : written.map Prod.fst = v :: items := by simp [hwritten, Function.comp_def]
      have htexts : written.map Prod.snd = writeItems L F.text (depth + 1) (v :: items) := by
        simp [hwritten, writeItems_eq, Function.comp_def]
      rw [pad_values, sequenceText_pad _ _ _ _ hne, hvalues, htexts] at hspells
      rw [write]
      simpa using hspells
  | @dict entries hkeys h ih =>
    cases entries with
    | nil =>
      have hgap : ∀ c ∈ ([] : List Char), isBlank c = true := nofun
      exact .emptyDict hgap
    | cons e entries =>
      obtain ⟨written, hwritten⟩ : ∃ written, written = (e :: entries).map fun f => (f, entryText L F.text (depth + 1) f) :=
        ⟨_, rfl⟩
      have hspell : ∀ f ∈ written, SpellsMember F f.1 f.2 := by
        rw [hwritten]
        exact List.forall_mem_map.mpr fun f hf => spellsMember_entryText L (ih f hf (depth + 1))
      have hhead : ∀ f ∈ written, ∀ c ∈ f.2.head?, isBlank c = false := by
        rw [hwritten]
        refine List.forall_mem_map.mpr fun f _ c hc => ?_
        cases hc
        decide
      have hne : written ≠ [] := by simp [hwritten]
      have hparts : ∀ p ∈ pad (L.opening depth) (L.gap depth) (L.closing depth) written,
          (p.value, p.text) ∈ written ∧ p.Padded isBlank := fun p hp =>
        mem_pad (L.opening_blank depth) (L.gap_blank depth) (L.closing_blank depth) hhead hp
      obtain ⟨members, hmembers, hall⟩ := exists_members (fun p hp => (hparts p hp).2) fun p hp => hspell _ (hparts p hp).1
      have hentries : members.map (fun m => (m.key, m.value)) = e :: entries := by
        have hvalues := congrArg (List.map Part.value) hmembers
        rw [pad_values, List.map_map] at hvalues
        refine Eq.trans hvalues ?_
        simp [hwritten, Function.comp_def]
      have hmembersNe : members ≠ [] := by
        rintro rfl
        exact List.cons_ne_nil e entries hentries.symm
      have hspells := Spells.dict hmembersNe (fun m hm => (hall m hm).1) fun m hm => (hall m hm).2
      have htexts : written.map Prod.snd = writeEntries L F.text (depth + 1) (e :: entries) := by
        simp [hwritten, writeEntries_eq, Function.comp_def]
      rw [hmembers, hentries, Dict.setAll_of_nodup (by simpa using hkeys), sequenceText_pad _ _ _ _ hne, htexts] at hspells
      rw [write]
      simpa using hspells

/-- What is written is loaded again. -/
theorem loads_write {v : Value} (h : Readable F v) : loads F (write L F.text 0 v) = some v :=
  loads_iff.mpr ⟨[], write L F.text 0 v, [], by simp, nofun, nofun, write_spells L h 0⟩

/-! ## Sorted keys -/

mutual

/-- `sort_keys=True`. -/
def sortKeys : Value → Value
  | .list items => .list (sortKeysItems items)
  | .dict entries => .dict (Dict.sorted (sortKeysEntries entries))
  | v => v

def sortKeysItems : List Value → List Value
  | [] => []
  | v :: rest => sortKeys v :: sortKeysItems rest

def sortKeysEntries : List (String × Value) → List (String × Value)
  | [] => []
  | (key, v) :: rest => (key, sortKeys v) :: sortKeysEntries rest

end

theorem sortKeys_list (items : List Value) : sortKeys (.list items) = .list (items.map sortKeys) := by
  have hitems : sortKeysItems items = items.map sortKeys := by
    induction items with
    | nil => rfl
    | cons v items ih => rw [sortKeysItems, ih, List.map_cons]
  rw [sortKeys, hitems]

theorem sortKeys_dict (entries : Dict Value) :
    sortKeys (.dict entries) = .dict (entries.sorted.map fun e => (e.1, sortKeys e.2)) := by
  have hentries : sortKeysEntries entries = entries.map fun e => (e.1, sortKeys e.2) := by
    induction entries with
    | nil => rfl
    | cons e entries ih => rw [sortKeysEntries, ih, List.map_cons]
  rw [sortKeys, hentries, Dict.sorted_map]

theorem readable_sortKeys {v : Value} (h : Readable F v) : Readable F (sortKeys v) := by
  induction h with
  | none => exact .none
  | bool b => exact .bool b
  | int n => exact .int n
  | float h => exact .float h
  | str s => exact .str s
  | @list items h ih =>
    rw [sortKeys_list]
    exact .list (List.forall_mem_map.mpr ih)
  | @dict entries hkeys h ih =>
    rw [sortKeys_dict]
    refine .dict ?_ (List.forall_mem_map.mpr fun e he => ih e ((Dict.sorted_perm entries).mem_iff.mp he))
    simpa [Dict.keys, List.map_map, Function.comp_def] using Dict.nodup_keys_sorted hkeys

/-- A key is found in the sorted dictionary as in the first one. -/
theorem get?_sortKeys {entries : Dict Value} (h : entries.keys.Nodup) (key : String) :
    Dict.get? (entries.sorted.map fun e => (e.1, sortKeys e.2)) key = (entries.get? key).map sortKeys := by
  rw [Dict.get?_map, Dict.get?_sorted h]

end Json

end Occp
