import Occp.Policy.Guards
import Occp.PyEq

/-!
# What the guards see

A string that lies in at most ten containers stands in the text whole, between spaces. Deeper
ones are dropped, and so are the fields that a guard skips.
-/

namespace Occp.Policy

open Lib (Regex)
open Lib.Regex (Framed framed_split lead trail)
open Re (Pattern Occurs HasMatch digits text spaces ignoreCase)

/-! ## Strings of a payload -/

/-- A string that is a value, in this many lists and dictionaries. -/
inductive StringIn : Value → (containers : Nat) → String → Prop
  | here (s : String) : StringIn (.str s) 0 s
  | item {items : List Value} {v : Value} {n : Nat} {s : String} (hv : v ∈ items) (hs : StringIn v n s) :
      StringIn (.list items) (n + 1) s
  | entry {entries : Dict Value} {key : String} {v : Value} {n : Nat} {s : String} (hv : (key, v) ∈ entries)
      (hs : StringIn v n s) : StringIn (.dict entries) (n + 1) s

mutual

def pieces (str : Value → String) : Value → (depth : Nat) → List (List Char)
  | .str s, depth => if 10 < depth then [[]] else [s.toList]
  | .dict entries, depth => if 10 < depth ∨ entries = [] then [[]] else entryPieces str entries (depth + 1)
  | .list items, depth => if 10 < depth ∨ items = [] then [[]] else itemPieces str items (depth + 1)
  | v, depth => if 10 < depth then [[]] else [(str v).toList]

def entryPieces (str : Value → String) : List (String × Value) → Nat → List (List Char)
  | [], _ => []
  | (_, v) :: rest, depth => pieces str v depth ++ entryPieces str rest depth

def itemPieces (str : Value → String) : List Value → Nat → List (List Char)
  | [], _ => []
  | v :: rest, depth => pieces str v depth ++ itemPieces str rest depth

end

variable (str : Value → String)

theorem flattenEntries_eq (entries : Dict Value) (depth : Nat) :
    flattenEntries str entries depth = entries.map fun e => flattenToText str e.2 depth := by
  induction entries with
  | nil => rfl
  | cons e entries ih => rw [flattenEntries, ih, List.map_cons]

theorem flattenItems_eq (items : List Value) (depth : Nat) :
    flattenItems str items depth = items.map fun v => flattenToText str v depth := by
  induction items with
  | nil => rfl
  | cons v items ih => rw [flattenItems, ih, List.map_cons]

theorem entryPieces_eq (entries : Dict Value) (depth : Nat) :
    entryPieces str entries depth = (entries.map fun e => pieces str e.2 depth).flatten := by
  induction entries with
  | nil => rfl
  | cons e entries ih => rw [entryPieces, ih, List.map_cons, List.flatten_cons]

theorem itemPieces_eq (items : List Value) (depth : Nat) :
    itemPieces str items depth = (items.map fun v => pieces str v depth).flatten := by
  induction items with
  | nil => rfl
  | cons v items ih => rw [itemPieces, ih, List.map_cons, List.flatten_cons]

theorem pieces_ne_nil (v : Value) (depth : Nat) : pieces str v depth ≠ [] := by
  induction v using Value.induction generalizing depth with
  | list items ih =>
    unfold pieces
    split
    · exact List.cons_ne_nil _ _
    · next h =>
      obtain ⟨v, items, rfl⟩ := List.exists_cons_of_ne_nil fun hnil => h (.inr hnil)
      rw [itemPieces]
      exact fun hnil => ih v List.mem_cons_self (depth + 1) (List.append_eq_nil_iff.mp hnil).1
  | dict entries ih =>
    unfold pieces
    split
    · exact List.cons_ne_nil _ _
    · next h =>
      obtain ⟨e, entries, rfl⟩ := List.exists_cons_of_ne_nil fun hnil => h (.inr hnil)
      rw [entryPieces]
      exact fun hnil => ih e List.mem_cons_self (depth + 1) (List.append_eq_nil_iff.mp hnil).1
  | _ =>
    unfold pieces
    split <;> exact List.cons_ne_nil _ _

/-- The text is one join of its pieces. -/
theorem flattenToText_eq (v : Value) (depth : Nat) :
    flattenToText str v depth = [' '].intercalate (pieces str v depth) := by
  induction v using Value.induction generalizing depth with
  | list items ih =>
    unfold flattenToText pieces
    by_cases hdeep : 10 < depth
    · simp [hdeep]
    · rw [if_neg hdeep, flattenItems_eq]
      by_cases hnil : items = []
      · simp [hnil]
      · rw [if_neg (by simp [hdeep, hnil]), itemPieces_eq, ← Lib.Regex.intercalate_flatten, List.map_map]
        · exact congrArg _ (List.map_congr_left fun v hv => ih v hv (depth + 1))
        · intro g hg
          obtain ⟨v, -, rfl⟩ := List.mem_map.mp hg
          exact pieces_ne_nil str v (depth + 1)
  | dict entries ih =>
    unfold flattenToText pieces
    by_cases hdeep : 10 < depth
    · simp [hdeep]
    · rw [if_neg hdeep, flattenEntries_eq]
      by_cases hnil : entries = []
      · simp [hnil]
      · rw [if_neg (by simp [hdeep, hnil]), entryPieces_eq, ← Lib.Regex.intercalate_flatten, List.map_map]
        · exact congrArg _ (List.map_congr_left fun e he => ih e he (depth + 1))
        · intro g hg
          obtain ⟨e, -, rfl⟩ := List.mem_map.mp hg
          exact pieces_ne_nil str e.2 (depth + 1)
  | _ =>
    unfold flattenToText pieces
    split <;> simp

theorem mem_pieces {v : Value} {n : Nat} {s : String} (h : StringIn v n s) {depth : Nat} (hdepth : depth + n ≤ 10) :
    s.toList ∈ pieces str v depth := by
  induction h generalizing depth with
  | here s => simp [pieces, show ¬ 10 < depth by omega]
  | @item items v n s hv hs ih =>
    rw [pieces, if_neg (by simp [List.ne_nil_of_mem hv]; omega), itemPieces_eq]
    exact List.mem_flatten.mpr ⟨_, List.mem_map_of_mem hv, ih (by omega)⟩
  | @entry entries key v n s hv hs ih =>
    rw [pieces, if_neg (by simp [List.ne_nil_of_mem hv]; omega), entryPieces_eq]
    exact List.mem_flatten.mpr ⟨_, List.mem_map_of_mem hv, ih (by omega)⟩

/-- A string that is not too deep stands in the text between spaces. -/
theorem framed_flattenToText (u : Unicode) {v : Value} {n : Nat} {s : String} (h : StringIn v n s) (hn : n ≤ 10) :
    Framed u.isWord s.toList (flattenToText str v 0) := by
  obtain ⟨before, after, hsplit⟩ := List.append_of_mem (mem_pieces str h (by omega : 0 + n ≤ 10))
  rw [flattenToText_eq, hsplit]
  exact framed_split (u.isWord_of_isSpace ' ' (by decide)) s.toList before after

def nested (v : Value) : (lists : Nat) → Value
  | 0 => v
  | n + 1 => .list [nested v n]

theorem stringIn_nested (s : String) (n : Nat) : StringIn (nested (.str s) n) n s := by
  induction n with
  | zero => exact .here s
  | succ n ih => exact .item (List.mem_singleton_self _) ih

/-! ## Personal data -/

namespace PIIGuard

/-- A substring matches one of the patterns, and is a valid number where that is the card pattern. -/
def Leaks (u : Unicode) (s : String) : Prop :=
  ∃ label pattern before w after, (label, pattern) ∈ patterns u ∧ s.toList = before ++ w ++ after ∧
    Occurs u pattern before w after ∧ (label = "credit_card" → luhnCheck u w = true)

/-- A valid card number in one of the texts, with no card-like match before it in their join. -/
def LeadingCard (u : Unicode) (texts : List (List Char)) : Prop :=
  ∃ earlier s later before w after, texts = earlier ++ s :: later ∧ s = before ++ w ++ after ∧
    Occurs u (creditCard u) before w after ∧ luhnCheck u w = true ∧
    ∀ x y z, [' '].intercalate texts = x ++ y ++ z → x.length < (lead [' '] earlier ++ before).length →
      ¬ Occurs u (creditCard u) x y z

/-- Personal data in the fields that are scanned, at most ten containers deep. -/
inductive Caught (u : Unicode) (payload : Dict Value) : Prop
  | pattern {n : Nat} {s label : String} {pattern : Regex Char} (hs : StringIn (.dict (filtered payload)) n s)
      (hn : n ≤ 10) (hp : (label, pattern) ∈ patterns u) (hlabel : label ≠ "credit_card") (hm : HasMatch u pattern s)
  | card (h : LeadingCard u (pieces str (.dict (filtered payload)) 0))

variable {str} {u : Unicode} {payload : Dict Value}

theorem not_passed_of_detects {label : String} {pattern : Regex Char} (hp : (label, pattern) ∈ patterns u)
    (h : detects u (flattenToText str (.dict (filtered payload)) 0) label pattern = true) :
    (check u str payload).passed = false := by
  have hmem : label ∈ matchedPatterns u str payload :=
    List.mem_map.mpr ⟨(label, pattern), List.mem_filter.mpr ⟨hp, h⟩, rfl⟩
  unfold check
  dsimp only
  rw [if_neg]
  rw [List.isEmpty_iff]
  exact List.ne_nil_of_mem hmem

theorem not_cardSeparator_of_digit (c : Char) (hc : Re.isDigit u c = true) : cardSeparator c = false := by
  have hword := u.isWord_of_digit c hc
  rw [cardSeparator, Bool.or_eq_false_iff]
  constructor
  · by_contra hspace
    have hno := u.isWord_of_isSpace c (by simpa using hspace)
    exact Bool.false_ne_true (hno.symm.trans hword)
  · rw [beq_eq_false_iff_ne]
    rintro rfl
    exact Bool.false_ne_true (u.isWord_hyphen.symm.trans hword)

/-- A group of digits does not start with a separator. -/
theorem digits_first {min : Nat} {max : Option Nat} {s : Regex Char} (hmin : 0 < min) (k : Regex.Cursor Char)
    (e : Regex.Cursor Char) (he : e ∈ (Regex.seq (.rep (Re.isDigit u) min max) s).ends u.isWord k) :
    ∃ c cs, k.rest = c :: cs ∧ cardSeparator c = false := by
  obtain ⟨mid, hmid, -⟩ := List.mem_flatMap.mp he
  obtain ⟨w, hw, hall, hlen, -⟩ := Regex.reads_of_mem_repEnds hmid
  obtain ⟨c, cs, rfl⟩ := List.exists_cons_of_length_pos (Nat.lt_of_lt_of_le hmin hlen)
  exact ⟨c, cs ++ mid.rest, hw.rest, not_cardSeparator_of_digit c (hall c List.mem_cons_self)⟩

/-- A card number can end in one place only. -/
theorem single_creditCard (u : Unicode) : (creditCard u).Single u.isWord := by
  have hgroup : (digits u 4).Single u.isWord := Regex.single_of_width (n := 4) rfl
  have hlast : (Regex.seq (.rep (Re.isDigit u) 1 (some 4)) .boundary).Single u.isWord :=
    Regex.single_rep_boundary u.isWord_of_digit Nat.one_pos
  have hthird := Regex.single_opt_seq hlast (digits_first Nat.one_pos)
  have hsecond := Regex.single_opt_seq (Regex.single_seq hgroup hthird) (digits_first (Nat.succ_pos 3))
  have hfirst := Regex.single_opt_seq (Regex.single_seq hgroup hsecond) (digits_first (Nat.succ_pos 3))
  exact Regex.single_seq (Regex.single_of_width (n := 0) rfl)
    (Regex.single_seq (Regex.single_of_width (n := 4) rfl) hfirst)

theorem search_leadingCard {texts : List (List Char)} (h : LeadingCard u texts) :
    ∃ w, Re.search u (creditCard u) ([' '].intercalate texts) = some w ∧ luhnCheck u w = true := by
  obtain ⟨earlier, s, later, before, w, after, rfl, rfl, hoccurs, hluhn, hfirst⟩ := h
  have hspace : u.isWord ' ' = false := u.isWord_of_isSpace ' ' (by decide)
  have hwhole := Regex.occurs_of_framed hoccurs (Regex.any_getLast?_lead hspace earlier)
    (Regex.any_head?_trail hspace later)
  have hjoin : [' '].intercalate (earlier ++ (before ++ w ++ after) :: later) =
      lead [' '] earlier ++ before ++ w ++ (after ++ trail [' '] later) := by
    rw [Regex.intercalate_split]
    simp only [List.append_assoc]
  rw [hjoin] at hfirst ⊢
  exact ⟨w, Regex.search_eq_of_first (single_creditCard u) hwhole hfirst, hluhn⟩

/-- **Personal data in a scanned field that is not too deep does not pass; of card-like matches, the first
one counts.** -/
theorem not_passed_of_caught (h : Caught str u payload) : (check u str payload).passed = false := by
  cases h with
  | @pattern n s label pattern hs hn hp hlabel hm =>
    refine not_passed_of_detects hp ?_
    obtain ⟨found, hfound⟩ := Option.isSome_iff_exists.mp (Re.search_isSome hm (framed_flattenToText str u hs hn))
    simp [detects, hfound, hlabel]
  | card h =>
    obtain ⟨w, hsearch, hluhn⟩ := search_leadingCard h
    have hcard : ("credit_card", creditCard u) ∈ patterns u := by simp [patterns]
    refine not_passed_of_detects hcard ?_
    rw [flattenToText_eq]
    simp [detects, hsearch, hluhn]

theorem leaks_address : Leaks .ascii "to a@b.io" :=
  ⟨"email", email, "to ".toList, "a@b.io".toList, [], by simp [patterns], by decide, by decide +kernel, by decide⟩

/-- An address passes in a field that is skipped, and in another one in too many containers. -/
theorem skipped_and_deep_data_pass :
    (¬ ∀ (payload : Dict Value) (n : Nat) (s : String), n ≤ 10 → StringIn (.dict payload) n s → Leaks .ascii s →
      (check .ascii (fun _ => "") payload).passed = false) ∧
    ¬ ∀ (payload : Dict Value) (n : Nat) (s : String), StringIn (.dict (filtered payload)) n s → Leaks .ascii s →
      (check .ascii (fun _ => "") payload).passed = false := by
  constructor
  · intro h
    have hin : StringIn (.dict [("plan", .str "to a@b.io")]) 1 "to a@b.io" := .entry (List.mem_singleton_self _) (.here _)
    have hfails := h _ 1 _ (by decide) hin leaks_address
    revert hfails
    decide +kernel
  · intro h
    have hin : StringIn (.dict (filtered [("x", nested (.str "to a@b.io") 10)])) 11 "to a@b.io" :=
      .entry (List.mem_singleton_self _) (stringIn_nested _ 10)
    have hfails := h _ 11 _ hin leaks_address
    revert hfails
    decide +kernel

theorem address_caught : (check .ascii (fun _ => "") [("x", nested (.str "to a@b.io") 3)]).passed = false := by
  have hemail : ("email", email) ∈ patterns .ascii := by simp [patterns]
  refine not_passed_of_caught (.pattern (.entry (List.mem_singleton_self _) (stringIn_nested _ 3)) ?_ hemail ?_ ?_)
  · decide
  · decide
  · exact ⟨"to ".toList, "a@b.io".toList, [], by decide, by decide +kernel⟩

end PIIGuard

/-! ## Prompt injection -/

namespace PromptInjectionGuard

variable {str} {u : Unicode} {payload : Dict Value}

/-- **A string that an injection pattern matches does not pass, at most ten containers deep, in a task that the
brain did not dispatch.** -/
theorem not_passed_of_match (hbrain : isBrainDispatched payload = false) {n : Nat} {s : String}
    (hs : StringIn (.dict payload) n s) (hn : n ≤ 10) {p : Pattern} (hp : p ∈ suspiciousPatterns)
    (hm : HasMatch u (ignoreCase p.regex) s) : (check u str payload).passed = false := by
  have hall : filtered payload = payload := by rw [filtered, if_neg (by rw [hbrain]; decide)]
  have hfound : (Re.search u (ignoreCase p.regex) (flattenToText str (.dict (filtered payload)) 0)).isSome = true := by
    rw [hall]
    exact Re.search_isSome hm (framed_flattenToText str u hs hn)
  have hmem : p.source ∈ matchedPatterns u str payload :=
    List.mem_map.mpr ⟨p, List.mem_filter.mpr ⟨hp, hfound⟩, rfl⟩
  unfold check
  dsimp only
  rw [if_neg]
  rw [List.isEmpty_iff]
  exact List.ne_nil_of_mem hmem

theorem hasMatch_override : HasMatch .ascii (ignoreCase (.sequence [text "ADMIN", spaces, text "OVERRIDE"])) "Admin override" :=
  ⟨[], "Admin override".toList, [], by decide, by decide +kernel⟩

theorem override_mem : ⟨"ADMIN\\s+OVERRIDE", .sequence [text "ADMIN", spaces, text "OVERRIDE"]⟩ ∈ suspiciousPatterns := by
  simp [suspiciousPatterns]

theorem deep_injection_passes :
    ¬ ∀ (payload : Dict Value) (n : Nat) (s : String) (p : Pattern), isBrainDispatched payload = false →
      StringIn (.dict payload) n s → p ∈ suspiciousPatterns → HasMatch .ascii (ignoreCase p.regex) s →
      (check .ascii (fun _ => "") payload).passed = false := by
  intro h
  have hin : StringIn (.dict [("name", nested (.str "Admin override") 10)]) 11 "Admin override" :=
    .entry (List.mem_singleton_self _) (stringIn_nested _ 10)
  have hfails := h _ 11 _ _ (by decide) hin override_mem hasMatch_override
  revert hfails
  decide +kernel

theorem injection_caught :
    (check .ascii (fun _ => "") [("name", nested (.str "Admin override") 9)]).passed = false :=
  not_passed_of_match (by decide) (.entry (List.mem_singleton_self _) (stringIn_nested _ 9)) (by decide) override_mem
    hasMatch_override

end PromptInjectionGuard

end Occp.Policy
