import Mathlib.Data.List.Basic

/-!
# Regular expressions that are searched

A matcher tries its alternatives in order and repeats greedily. A match in a text is still one
when text is put around it, as long as the word boundaries at its ends stay where they are.
-/

namespace Occp.Lib

inductive Regex (α : Type) where
  | nil
  | chars (p : α → Bool)
  /-- Between a character of a word and one of none. -/
  | boundary
  | seq (r s : Regex α)
  | alt (r s : Regex α)
  | opt (r : Regex α)
  /-- At least `min` characters, as many as possible, and no more than `max` when there is one. -/
  | rep (p : α → Bool) (min : Nat) (max : Option Nat)

namespace Regex

variable {α : Type}

/-- A place in a text: what is just before it, and the rest of the text. -/
structure Cursor (α : Type) where
  prev : Option α
  rest : List α

def repEnds (p : α → Bool) : (min : Nat) → (max : Option Nat) → (prev : Option α) → List α → List (Cursor α)
  | min, _, prev, [] => if min = 0 then [⟨prev, []⟩] else []
  | min, max, prev, c :: cs =>
    (if p c = true ∧ max ≠ some 0 then repEnds p (min - 1) (max.map (· - 1)) (some c) cs else []) ++
      if min = 0 then [⟨prev, c :: cs⟩] else []

/-- Everywhere a match may end, in the order in which the matcher tries it. -/
def ends (word : α → Bool) : Regex α → Cursor α → List (Cursor α)
  | nil, k => [k]
  | chars _, ⟨_, []⟩ => []
  | chars p, ⟨_, c :: cs⟩ => if p c then [⟨some c, cs⟩] else []
  | boundary, k => if k.prev.any word != k.rest.head?.any word then [k] else []
  | seq r s, k => (ends word r k).flatMap (ends word s)
  | alt r s, k => ends word r k ++ ends word s k
  | opt r, k => ends word r k ++ [k]
  | rep p min max, k => repEnds p min max k.prev k.rest

/-- What the first match in the text consumes, from a place with `prev` before it. -/
def searchFrom (word : α → Bool) (r : Regex α) (prev : Option α) : List α → Option (List α)
  | [] => (r.ends word ⟨prev, []⟩).head?.map fun _ => []
  | c :: cs =>
    match r.ends word ⟨prev, c :: cs⟩ with
    | e :: _ => some ((c :: cs).take ((c :: cs).length - e.rest.length))
    | [] => searchFrom word r (some c) cs

def search (word : α → Bool) (r : Regex α) (text : List α) : Option (List α) := searchFrom word r none text

def sequence : List (Regex α) → Regex α
  | [] => nil
  | [r] => r
  | r :: rs => seq r (sequence rs)

def anyOf (r : Regex α) (rs : List (Regex α)) : Regex α := rs.foldl alt r

def mapChars (f : (α → Bool) → α → Bool) : Regex α → Regex α
  | nil => nil
  | chars p => chars (f p)
  | boundary => boundary
  | seq r s => seq (r.mapChars f) (s.mapChars f)
  | alt r s => alt (r.mapChars f) (s.mapChars f)
  | opt r => opt (r.mapChars f)
  | rep p min max => rep (f p) min max

/-! ## Matches -/

variable (word : α → Bool)

/-- The expression matches `w` between `before` and `after`. -/
def Occurs (r : Regex α) (before w after : List α) : Prop :=
  ∃ e ∈ r.ends word ⟨before.getLast?, w ++ after⟩, e.rest = after

instance [DecidableEq α] (r : Regex α) (before w after : List α) : Decidable (Occurs word r before w after) :=
  inferInstanceAs (Decidable (∃ e ∈ r.ends word ⟨before.getLast?, w ++ after⟩, e.rest = after))

/-- The text, with something around it that belongs to no word at its ends. -/
def Framed (s text : List α) : Prop :=
  ∃ before after, text = before ++ s ++ after ∧ before.getLast?.any word = false ∧ after.head?.any word = false

structure Extends (after : List α) (k k' : Cursor α) : Prop where
  rest : k'.rest = k.rest ++ after
  prev : k'.prev.any word = k.prev.any word

variable {word} {after : List α} {k k' e : Cursor α}

theorem mem_ends_chars {p : α → Bool} :
    e ∈ (chars p).ends word k ↔ ∃ c cs, k.rest = c :: cs ∧ p c = true ∧ e = ⟨some c, cs⟩ := by
  obtain ⟨prev, rest⟩ := k
  cases rest with
  | nil => simp [ends]
  | cons c cs => simp [ends]

theorem mem_ends_boundary :
    e ∈ boundary.ends word k ↔ (k.prev.any word != k.rest.head?.any word) = true ∧ e = k := by
  simp [ends]

theorem mem_ends_seq {r s : Regex α} : e ∈ (seq r s).ends word k ↔ ∃ mid ∈ r.ends word k, e ∈ s.ends word mid :=
  List.mem_flatMap

theorem mem_ends_alt {r s : Regex α} : e ∈ (alt r s).ends word k ↔ e ∈ r.ends word k ∨ e ∈ s.ends word k :=
  List.mem_append

theorem mem_ends_opt {r : Regex α} : e ∈ (opt r).ends word k ↔ e ∈ r.ends word k ∨ e = k := by
  simp [ends]

theorem repEnds_extends {p : α → Bool} {min : Nat} {max : Option Nat} (h : Extends word after k k')
    (he : e ∈ repEnds p min max k.prev k.rest) :
    ∃ e' ∈ repEnds p min max k'.prev k'.rest, Extends word after e e' := by
  obtain ⟨prev, rest⟩ := k
  obtain ⟨prev', rest'⟩ := k'
  obtain ⟨hrest, hprev⟩ := h
  dsimp only at hrest hprev he ⊢
  subst hrest
  induction rest generalizing min max prev prev' with
  | nil =>
    unfold repEnds at he
    split at he
    · next hmin =>
      cases List.mem_singleton.mp he
      refine ⟨⟨prev', after⟩, ?_, rfl, hprev⟩
      subst hmin
      cases after <;> simp [repEnds]
    · cases he
  | cons c cs ih =>
    rw [List.cons_append]
    unfold repEnds at he ⊢
    rcases List.mem_append.mp he with hmore | hstop
    · split at hmore
      · next hc =>
        obtain ⟨e', he', hext⟩ := ih (some c) hmore (some c) rfl
        rw [if_pos hc]
        exact ⟨e', List.mem_append_left _ he', hext⟩
      · cases hmore
    · split at hstop
      · next hmin =>
        cases List.mem_singleton.mp hstop
        rw [if_pos hmin]
        exact ⟨⟨prev', c :: (cs ++ after)⟩, List.mem_append_right _ (List.mem_singleton_self _), rfl, hprev⟩
      · cases hstop

/-- What matches still does when more text comes after it, unless that continues a word. -/
theorem ends_extends {r : Regex α} (hafter : after.head?.any word = false) (h : Extends word after k k')
    (he : e ∈ r.ends word k) : ∃ e' ∈ r.ends word k', Extends word after e e' := by
  induction r generalizing k k' e with
  | nil =>
    cases List.mem_singleton.mp he
    exact ⟨k', List.mem_singleton_self k', h⟩
  | chars p =>
    obtain ⟨c, cs, hrest, hc, rfl⟩ := mem_ends_chars.mp he
    have hrest' : k'.rest = c :: (cs ++ after) := by rw [h.rest, hrest, List.cons_append]
    exact ⟨⟨some c, cs ++ after⟩, mem_ends_chars.mpr ⟨c, _, hrest', hc, rfl⟩, rfl, rfl⟩
  | boundary =>
    obtain ⟨hb, rfl⟩ := mem_ends_boundary.mp he
    have hnext : k'.rest.head?.any word = e.rest.head?.any word := by
      rw [h.rest]
      cases hrest : e.rest with
      | nil => simpa using hafter
      | cons c cs => rfl
    exact ⟨k', mem_ends_boundary.mpr ⟨by rwa [h.prev, hnext], rfl⟩, h⟩
  | seq r s ihr ihs =>
    obtain ⟨mid, hmid, he⟩ := mem_ends_seq.mp he
    obtain ⟨mid', hmid', hext⟩ := ihr h hmid
    obtain ⟨e', he', hext'⟩ := ihs hext he
    exact ⟨e', mem_ends_seq.mpr ⟨mid', hmid', he'⟩, hext'⟩
  | alt r s ihr ihs =>
    rcases mem_ends_alt.mp he with he | he
    · obtain ⟨e', he', hext⟩ := ihr h he
      exact ⟨e', mem_ends_alt.mpr (.inl he'), hext⟩
    · obtain ⟨e', he', hext⟩ := ihs h he
      exact ⟨e', mem_ends_alt.mpr (.inr he'), hext⟩
  | opt r ih =>
    rcases mem_ends_opt.mp he with he | rfl
    · obtain ⟨e', he', hext⟩ := ih h he
      exact ⟨e', mem_ends_opt.mpr (.inl he'), hext⟩
    · exact ⟨k', mem_ends_opt.mpr (.inr rfl), h⟩
  | rep p min max => exact repEnds_extends h he

theorem occurs_of_framed {r : Regex α} {before w after pre post : List α} (h : Occurs word r before w after)
    (hpre : pre.getLast?.any word = false) (hpost : post.head?.any word = false) :
    Occurs word r (pre ++ before) w (after ++ post) := by
  obtain ⟨e, he, hrest⟩ := h
  have hprev : (pre ++ before).getLast?.any word = before.getLast?.any word := by
    rcases List.eq_nil_or_concat before with rfl | ⟨init, last, rfl⟩
    · simpa using hpre
    · rw [List.concat_eq_append, ← List.append_assoc, List.getLast?_concat, List.getLast?_concat]
  have hextends : Extends word post ⟨before.getLast?, w ++ after⟩ ⟨(pre ++ before).getLast?, w ++ after ++ post⟩ :=
    ⟨rfl, hprev⟩
  obtain ⟨e', he', hext⟩ := ends_extends hpost hextends he
  rw [List.append_assoc] at he'
  exact ⟨e', he', by rw [hext.rest, hrest]⟩

theorem framed_refl (s : List α) : Framed word s s := ⟨[], [], by simp, rfl, rfl⟩

/-! ## Searching -/

variable {r : Regex α}

theorem searchFrom_isSome_iff (seen text : List α) :
    (searchFrom word r seen.getLast? text).isSome ↔
      ∃ before rest, text = before ++ rest ∧ r.ends word ⟨(seen ++ before).getLast?, rest⟩ ≠ [] := by
  induction text generalizing seen with
  | nil =>
    simp only [searchFrom, Option.isSome_map, List.isSome_head?]
    constructor
    · intro h
      exact ⟨[], [], rfl, by simpa using h⟩
    · rintro ⟨before, rest, hsplit, h⟩
      obtain ⟨rfl, rfl⟩ := List.append_eq_nil_iff.mp hsplit.symm
      simpa using h
  | cons c cs ih =>
    rw [searchFrom]
    split
    · next e more hends =>
      refine iff_of_true rfl ⟨[], c :: cs, rfl, ?_⟩
      rw [List.append_nil, hends]
      exact List.cons_ne_nil e more
    · next hends =>
      have hih := ih (seen ++ [c])
      rw [List.getLast?_concat] at hih
      rw [hih]
      constructor
      · rintro ⟨before, rest, rfl, h⟩
        exact ⟨c :: before, rest, rfl, by rwa [List.append_cons]⟩
      · rintro ⟨before, rest, hsplit, h⟩
        cases before with
        | nil =>
          rw [List.nil_append] at hsplit
          rw [List.append_nil, ← hsplit] at h
          exact absurd hends h
        | cons d before =>
          obtain ⟨rfl, rfl⟩ := List.cons.inj hsplit
          exact ⟨before, rest, rfl, by rwa [List.append_cons] at h⟩

theorem search_isSome_of_occurs {before w after text : List α} (h : Occurs word r before w after)
    (hframed : Framed word (before ++ w ++ after) text) : (search word r text).isSome = true := by
  obtain ⟨pre, post, rfl, hpre, hpost⟩ := hframed
  obtain ⟨e, he, -⟩ := occurs_of_framed h hpre hpost
  refine (searchFrom_isSome_iff [] _).mpr ⟨pre ++ before, w ++ (after ++ post), by simp, ?_⟩
  exact List.ne_nil_of_mem (by simpa using he)

/-- All matches from a place end at the same place. -/
def Single (word : α → Bool) (r : Regex α) : Prop :=
  ∀ k, ∀ e ∈ r.ends word k, ∀ e' ∈ r.ends word k, e = e'

theorem searchFrom_eq_of_first (hsingle : r.Single word) (seen : List α) {before w after : List α}
    (h : Occurs word r (seen ++ before) w after)
    (hfirst : ∀ x y, before ++ (w ++ after) = x ++ y → x.length < before.length →
      r.ends word ⟨(seen ++ x).getLast?, y⟩ = []) :
    searchFrom word r seen.getLast? (before ++ (w ++ after)) = some w := by
  induction before generalizing seen with
  | nil =>
    obtain ⟨e, he, hrest⟩ := h
    rw [List.append_nil] at he
    rw [List.nil_append]
    cases htext : w ++ after with
    | nil =>
      obtain ⟨rfl, rfl⟩ := List.append_eq_nil_iff.mp htext
      rw [htext] at he
      obtain ⟨first, hhead⟩ := List.isSome_head?.mpr (List.ne_nil_of_mem he) |> Option.isSome_iff_exists.mp
      rw [searchFrom, hhead]
      rfl
    | cons c cs =>
      rw [htext] at he
      rw [searchFrom]
      split
      · next e' more hends =>
        have hsame : e' = e := hsingle _ e' (by rw [hends]; exact List.mem_cons_self) e he
        rw [hsame, hrest, ← htext, List.length_append, Nat.add_sub_cancel, List.take_left]
      · next hends =>
        rw [hends] at he
        cases he
  | cons c before ih =>
    have hstart : r.ends word ⟨seen.getLast?, c :: (before ++ (w ++ after))⟩ = [] := by
      simpa using hfirst [] (c :: (before ++ (w ++ after))) rfl (Nat.succ_pos _)
    rw [List.cons_append, searchFrom, hstart]
    have hih := ih (seen ++ [c]) (by rwa [← List.append_cons]) fun x y hxy hlen => by
      have hlater := hfirst (c :: x) y (by rw [List.cons_append, hxy, List.cons_append]) (Nat.succ_lt_succ hlen)
      rwa [List.append_cons] at hlater
    rwa [List.getLast?_concat] at hih

/-! ## Joined texts -/

/-- What a join puts before the text that comes after these. -/
def lead (sep : List α) (texts : List (List α)) : List α := texts.flatMap (· ++ sep)

def trail (sep : List α) (texts : List (List α)) : List α := texts.flatMap (sep ++ ·)

theorem intercalate_cons_eq (sep text : List α) (texts : List (List α)) :
    sep.intercalate (text :: texts) = text ++ trail sep texts := by
  induction texts generalizing text with
  | nil => simp [trail]
  | cons next texts ih =>
    rw [List.intercalate_cons_cons, ih]
    simp [trail]

theorem intercalate_split (sep text : List α) (before after : List (List α)) :
    sep.intercalate (before ++ text :: after) = lead sep before ++ text ++ trail sep after := by
  induction before with
  | nil => simp [lead, intercalate_cons_eq]
  | cons first before ih =>
    rw [List.cons_append, intercalate_cons_eq]
    cases before with
    | nil => simp [lead, trail]
    | cons second before =>
      rw [List.cons_append, intercalate_cons_eq] at ih
      simpa [lead, trail] using ih

/-- A join of joins is one join, where nothing is joined of no texts at all. -/
theorem intercalate_flatten (sep : List α) (groups : List (List (List α))) (h : ∀ g ∈ groups, g ≠ []) :
    sep.intercalate (groups.map sep.intercalate) = sep.intercalate groups.flatten := by
  have htrail (groups : List (List (List α))) (h : ∀ g ∈ groups, g ≠ []) :
      trail sep (groups.map sep.intercalate) = trail sep groups.flatten := by
    induction groups with
    | nil => rfl
    | cons g groups ih =>
      obtain ⟨text, texts, rfl⟩ := List.exists_cons_of_ne_nil (h g List.mem_cons_self)
      have hih := ih fun g hg => h g (List.mem_cons_of_mem _ hg)
      unfold trail at hih ⊢
      simp only [List.map_cons, List.flatMap_cons, hih, intercalate_cons_eq, List.flatten_cons, List.flatMap_append,
        List.append_assoc, trail]
  cases groups with
  | nil => rfl
  | cons g groups =>
    obtain ⟨text, texts, rfl⟩ := List.exists_cons_of_ne_nil (h g List.mem_cons_self)
    rw [List.map_cons, intercalate_cons_eq, intercalate_cons_eq, List.flatten_cons, List.cons_append,
      intercalate_cons_eq, htrail groups fun g hg => h g (List.mem_cons_of_mem _ hg)]
    simp [trail]

theorem any_getLast?_lead {c : α} (hc : word c = false) (texts : List (List α)) :
    (lead [c] texts).getLast?.any word = false := by
  rcases List.eq_nil_or_concat texts with rfl | ⟨init, last, rfl⟩
  · rfl
  · simp [lead, hc]

theorem any_head?_trail {c : α} (hc : word c = false) (texts : List (List α)) :
    (trail [c] texts).head?.any word = false := by
  cases texts with
  | nil => rfl
  | cons text texts => simp [trail, hc]

/-- A text that is joined with others is framed by what joins them. -/
theorem framed_split {c : α} (hc : word c = false) (text : List α) (before after : List (List α)) :
    Framed word text ([c].intercalate (before ++ text :: after)) :=
  ⟨lead [c] before, trail [c] after, intercalate_split [c] text before after, any_getLast?_lead hc before,
    any_head?_trail hc after⟩

/-! ## Matches that can end in one place only -/

/-- The end is where `w` has been read from the place. -/
structure Reads (k : Cursor α) (w : List α) (e : Cursor α) : Prop where
  rest : k.rest = w ++ e.rest
  prev : e.prev = w.getLast?.or k.prev

theorem reads_trans {k e e' : Cursor α} {w w' : List α} (h : Reads k w e) (h' : Reads e w' e') :
    Reads k (w ++ w') e' where
  rest := by rw [h.rest, h'.rest, List.append_assoc]
  prev := by rw [h'.prev, h.prev, List.getLast?_append, Option.or_assoc]

theorem reads_unique {k e e' : Cursor α} {w w' : List α} (h : Reads k w e) (h' : Reads k w' e')
    (hlen : w.length = w'.length) : e = e' := by
  obtain ⟨rfl, hrest⟩ := List.append_inj (h.rest.symm.trans h'.rest) hlen
  obtain ⟨prev, rest⟩ := e
  obtain ⟨prev', rest'⟩ := e'
  have hprev : prev = prev' := h.prev.trans h'.prev.symm
  rw [show rest = rest' from hrest, hprev]

theorem reads_of_mem_repEnds {p : α → Bool} {min : Nat} {max : Option Nat}
    (he : e ∈ repEnds p min max k.prev k.rest) :
    ∃ w, Reads k w e ∧ (∀ c ∈ w, p c = true) ∧ min ≤ w.length ∧ ∀ m ∈ max, w.length ≤ m := by
  obtain ⟨prev, rest⟩ := k
  dsimp only at he
  induction rest generalizing min max prev with
  | nil =>
    unfold repEnds at he
    split at he
    · next hmin =>
      cases List.mem_singleton.mp he
      exact ⟨[], ⟨rfl, rfl⟩, by simp, by simp [hmin], fun m _ => Nat.zero_le m⟩
    · cases he
  | cons c cs ih =>
    unfold repEnds at he
    rcases List.mem_append.mp he with hmore | hstop
    · split at hmore
      · next hc =>
        obtain ⟨w, hw, hall, hmin, hmax⟩ := ih (some c) hmore
        have hfirst : Reads ⟨prev, c :: cs⟩ [c] ⟨some c, cs⟩ := ⟨rfl, rfl⟩
        refine ⟨c :: w, reads_trans hfirst hw, ?_, ?_, ?_⟩
        · rintro d (_ | ⟨_, hd⟩)
          · exact hc.1
          · exact hall d hd
        · rw [List.length_cons]
          omega
        · rintro m hm
          have hlen := hmax (m - 1) (by rw [hm]; rfl)
          have hpos : m ≠ 0 := fun hzero => hc.2 (by rw [← hzero]; exact hm)
          rw [List.length_cons]
          omega
      · cases hmore
    · split at hstop
      · next hmin =>
        cases List.mem_singleton.mp hstop
        exact ⟨[], ⟨rfl, rfl⟩, by simp, by simp [hmin], fun m _ => Nat.zero_le m⟩
      · cases hstop

/-- How many characters every match takes, for an expression whose matches are all of one length. -/
def width? : Regex α → Option Nat
  | nil => some 0
  | chars _ => some 1
  | boundary => some 0
  | seq r s => do return (← r.width?) + (← s.width?)
  | alt r s => if r.width? = s.width? then r.width? else none
  | opt _ => none
  | rep _ min max => if max = some min then some min else none

/-- A match reads what it consumes, and has the width of the expression when that has one. -/
theorem reads_of_mem_ends {r : Regex α} (he : e ∈ r.ends word k) :
    ∃ w, Reads k w e ∧ ∀ n, r.width? = some n → w.length = n := by
  induction r generalizing k e with
  | nil =>
    cases List.mem_singleton.mp he
    exact ⟨[], ⟨rfl, rfl⟩, fun n hn => Option.some.inj hn⟩
  | chars p =>
    obtain ⟨c, cs, hrest, -, rfl⟩ := mem_ends_chars.mp he
    exact ⟨[c], ⟨hrest, rfl⟩, fun n hn => Option.some.inj hn⟩
  | boundary =>
    obtain ⟨-, rfl⟩ := mem_ends_boundary.mp he
    exact ⟨[], ⟨rfl, rfl⟩, fun n hn => Option.some.inj hn⟩
  | seq r s ihr ihs =>
    obtain ⟨mid, hmid, he⟩ := mem_ends_seq.mp he
    obtain ⟨w, hw, hlen⟩ := ihr hmid
    obtain ⟨w', hw', hlen'⟩ := ihs he
    refine ⟨w ++ w', reads_trans hw hw', fun n hn => ?_⟩
    obtain ⟨i, hi, hn⟩ := Option.bind_eq_some_iff.mp hn
    obtain ⟨j, hj, hn⟩ := Option.bind_eq_some_iff.mp hn
    rw [List.length_append, hlen i hi, hlen' j hj]
    exact Option.some.inj hn
  | alt r s ihr ihs =>
    have hwidth {n : Nat} (hn : (alt r s).width? = some n) : r.width? = some n ∧ s.width? = some n := by
      rw [width?] at hn
      split at hn
      · next hsame => exact ⟨hn, hsame ▸ hn⟩
      · cases hn
    rcases mem_ends_alt.mp he with he | he
    · obtain ⟨w, hw, hlen⟩ := ihr he
      exact ⟨w, hw, fun n hn => hlen n (hwidth hn).1⟩
    · obtain ⟨w, hw, hlen⟩ := ihs he
      exact ⟨w, hw, fun n hn => hlen n (hwidth hn).2⟩
  | opt r ih =>
    rcases mem_ends_opt.mp he with he | rfl
    · obtain ⟨w, hw, -⟩ := ih he
      exact ⟨w, hw, nofun⟩
    · exact ⟨[], ⟨rfl, rfl⟩, nofun⟩
  | rep p min max =>
    obtain ⟨w, hw, -, hmin, hle⟩ := reads_of_mem_repEnds he
    refine ⟨w, hw, fun n hn => ?_⟩
    rw [width?] at hn
    split at hn
    · next hmax =>
      cases hn
      exact Nat.le_antisymm (hle _ hmax) hmin
    · cases hn

theorem ends_eq_nil {r : Regex α} {before rest : List α}
    (h : ∀ w after, rest = w ++ after → ¬ Occurs word r before w after) :
    r.ends word ⟨before.getLast?, rest⟩ = [] := by
  rw [List.eq_nil_iff_forall_not_mem]
  intro e he
  obtain ⟨w, hw, -⟩ := reads_of_mem_ends he
  exact h w e.rest hw.rest ⟨e, by rw [← show rest = w ++ e.rest from hw.rest]; exact he, rfl⟩

theorem single_of_width {r : Regex α} {n : Nat} (hr : r.width? = some n) : r.Single word := by
  intro k e he e' he'
  obtain ⟨w, hw, hlen⟩ := reads_of_mem_ends he
  obtain ⟨w', hw', hlen'⟩ := reads_of_mem_ends he'
  exact reads_unique hw hw' ((hlen n hr).trans (hlen' n hr).symm)

theorem search_eq_of_first {r : Regex α} (hsingle : r.Single word) {before w after : List α}
    (h : Occurs word r before w after)
    (hfirst : ∀ x y z, before ++ w ++ after = x ++ y ++ z → x.length < before.length → ¬ Occurs word r x y z) :
    search word r (before ++ w ++ after) = some w := by
  rw [List.append_assoc] at hfirst ⊢
  refine searchFrom_eq_of_first hsingle [] h fun x rest hsplit hlen => ends_eq_nil fun y z hrest => ?_
  exact hfirst x y z (by rw [hsplit, hrest, List.append_assoc]) hlen

theorem single_seq {r s : Regex α} (hr : r.Single word) (hs : s.Single word) : (seq r s).Single word := by
  intro k e he e' he'
  obtain ⟨mid, hmid, he⟩ := mem_ends_seq.mp he
  obtain ⟨mid', hmid', he'⟩ := mem_ends_seq.mp he'
  cases hr k mid hmid mid' hmid'
  exact hs mid e he e' he'

/-- An optional character is taken just when it is there, where what follows cannot start with it. -/
theorem single_opt_seq {p : α → Bool} {s : Regex α} (hs : s.Single word)
    (hfirst : ∀ k, ∀ e ∈ s.ends word k, ∃ c cs, k.rest = c :: cs ∧ p c = false) :
    (seq (opt (chars p)) s).Single word := by
  intro k e he e' he'
  simp only [ends, List.flatMap_append, List.mem_append, List.flatMap_singleton] at he he'
  obtain ⟨prev, rest⟩ := k
  cases rest with
  | nil => exact hs _ e (by simpa [ends] using he) e' (by simpa [ends] using he')
  | cons c cs =>
    by_cases hc : p c = true
    · have hnot (e : Cursor α) (h : e ∈ s.ends word ⟨prev, c :: cs⟩) : False := by
        obtain ⟨d, ds, heq, hd⟩ := hfirst _ e h
        obtain ⟨rfl, -⟩ := List.cons.inj heq
        exact Bool.false_ne_true (hd.symm.trans hc)
      simp only [ends, if_pos hc, List.flatMap_singleton] at he he'
      exact hs _ e (he.resolve_right (hnot e)) e' (he'.resolve_right (hnot e'))
    · simp only [ends, if_neg hc, List.flatMap_nil, List.not_mem_nil, false_or] at he he'
      exact hs _ e he e' he'

/-- A repetition that has to reach the end of a word takes all of it. -/
theorem single_rep_boundary {p : α → Bool} {min : Nat} {max : Option Nat} (hp : ∀ c, p c = true → word c = true)
    (hmin : 0 < min) : (seq (rep p min max) boundary).Single word := by
  intro k e he e' he'
  have hend (e : Cursor α) (he : e ∈ (seq (rep p min max) boundary).ends word k) :
      ∃ w, Reads k w e ∧ (∀ c ∈ w, p c = true) ∧ e.rest.head?.any word = false := by
    obtain ⟨mid, hmid, he⟩ := mem_ends_seq.mp he
    obtain ⟨w, hw, hall, hlen, -⟩ := reads_of_mem_repEnds hmid
    obtain ⟨hb, rfl⟩ := mem_ends_boundary.mp he
    refine ⟨w, hw, hall, ?_⟩
    obtain ⟨init, last, rfl⟩ := (List.eq_nil_or_concat w).resolve_left (by rintro rfl; simp at hlen; omega)
    have hlast : word last = true := hp last (hall last (by simp))
    rw [hw.prev] at hb
    simpa [hlast] using hb
  obtain ⟨w, hw, hall, hstop⟩ := hend e he
  obtain ⟨w', hw', hall', hstop'⟩ := hend e' he'
  -- Were one shorter, the other would go on with a character of the word.
  have hle {w w' : List α} {e e' : Cursor α} (hw : Reads k w e) (hw' : Reads k w' e')
      (hall' : ∀ c ∈ w', p c = true) (hstop : e.rest.head?.any word = false) : w'.length ≤ w.length := by
    by_contra hlt
    have hsplit : w ++ e.rest = w' ++ e'.rest := hw.rest.symm.trans hw'.rest
    obtain ⟨t, rfl, hrest⟩ | ⟨t, rfl, -⟩ := List.append_eq_append_iff.mp hsplit
    · cases t with
      | nil => simp at hlt
      | cons c cs =>
        rw [hrest] at hstop
        have hc := hp c (hall' c (by simp))
        simp [hc] at hstop
    · simp at hlt
  exact reads_unique hw hw' (Nat.le_antisymm (hle hw' hw hall hstop') (hle hw hw' hall' hstop))

end Regex

end Occp.Lib
