import Occp.Lib.Except
import Occp.Orchestrator.CronFields

/-!
# The grammar of a cron field

A field is a list of items: `*`, `*/N`, `N`, `N/S`, `N-M` and `N-M/S`. An item is cut into its numbers,
whatever they look like, and `int` reads them.
-/

namespace Occp.Cron

/-! ## Items -/

inductive Base (ν : Type) where
  | all
  | single (n : ν)
  | between (n m : ν)

/-- One entry of the list, with its numbers as they are written or as they are read. -/
structure Item (ν : Type) where
  base : Base ν
  step : Option ν

variable {ν μ : Type}

def Base.map (f : ν → μ) : Base ν → Base μ
  | all => all
  | single n => single (f n)
  | between n m => between (f n) (f m)

def Base.numbers : Base ν → List ν
  | all => []
  | single n => [n]
  | between n m => [n, m]

def Base.read (f : ν → Option μ) : Base ν → Option (Base μ)
  | all => some all
  | single n => (f n).map single
  | between n m => (f n).bind fun a => (f m).map (between a)

namespace Item

def map (f : ν → μ) (i : Item ν) : Item μ := ⟨i.base.map f, i.step.map f⟩

def numbers (i : Item ν) : List ν := i.base.numbers ++ i.step.toList

def read (f : ν → Option μ) (i : Item ν) : Option (Item μ) :=
  (i.base.read f).bind fun base =>
    match i.step with
    | none => some ⟨base, none⟩
    | some s => (f s).map fun step => ⟨base, some step⟩

theorem read_map {κ : Type} {f : μ → Option κ} {g : ν → μ} {k : ν → κ} {p : ν → Prop} [DecidablePred p]
    (h : ∀ n, f (g n) = if p n then some (k n) else none) (i : Item ν) :
    (i.map g).read f = if ∀ n ∈ i.numbers, p n then some (i.map k) else none := by
  obtain ⟨base, step⟩ := i
  have hbase : (base.map g).read f = if ∀ n ∈ base.numbers, p n then some (base.map k) else none := by
    cases base with
    | all => rfl
    | single n =>
      simp only [Base.map, Base.read, Base.numbers, List.forall_mem_singleton, h]
      split <;> rfl
    | between n m =>
      simp only [Base.map, Base.read, Base.numbers, List.forall_mem_cons, List.not_mem_nil, false_imp_iff, implies_true,
        and_true, h]
      by_cases hn : p n <;> by_cases hm : p m <;> simp [hn, hm]
  cases step with
  | none =>
    simp only [map, read, numbers, hbase, Option.map_none, Option.toList_none, List.append_nil]
    split <;> rfl
  | some s =>
    simp only [map, read, numbers, hbase, Option.map_some, Option.toList_some, List.forall_mem_append,
      List.forall_mem_singleton, h]
    by_cases hall : ∀ n ∈ base.numbers, p n
    · rw [if_pos hall]
      by_cases hs : p s
      · rw [if_pos hs, if_pos ⟨hall, hs⟩]
        rfl
      · rw [if_neg hs, if_neg (not_and_of_not_right _ hs)]
        rfl
    · rw [if_neg hall, if_neg (not_and_of_not_left _ hall), Option.bind_none]

/-! ### Texts -/

def baseText : Base (List Char) → List Char
  | .all => ['*']
  | .single n => n
  | .between n m => n ++ '-' :: m

def text (i : Item (List Char)) : List Char :=
  match i.step with
  | none => baseText i.base
  | some s => baseText i.base ++ '/' :: s

def cutBase (base : List Char) : Base (List Char) :=
  if base = ['*'] then .all
  else
    match Lib.splitFirst '-' base with
    | some (n, m) => .between n m
    | none => .single base

def cut (part : List Char) : Item (List Char) :=
  match Lib.splitFirst '/' part with
  | some (base, s) => ⟨cutBase base, some s⟩
  | none => ⟨cutBase part, none⟩

/-! ### Values -/

variable (r : FieldRange)

def first (i : Item Int) : Int :=
  match i.base with
  | .all => r.min
  | .single n => n
  | .between n _ => n

def last (i : Item Int) : Int :=
  match i.base, i.step with
  | .all, _ => r.max
  | .single n, none => n
  | .single _, some _ => r.max
  | .between _ m, _ => m

def Denotes (i : Item Int) (v : Int) : Prop := i.first r ≤ v ∧ v ≤ i.last r ∧ i.step.getD 1 ∣ v - i.first r

/-- As documented: the bounds lie in the range and are in order, and the step is positive. -/
structure Valid (i : Item Int) : Prop where
  has : ∀ n ∈ i.base.numbers, r.Has n
  step_pos : ∀ s ∈ i.step, 0 < s
  ordered : i.first r ≤ i.last r

/-- As the code has it: a `*` has a step, a reversed range has one, too, and only the values lie in the range. -/
structure Tolerated (i : Item Int) : Prop where
  not_star : i.base = .all → i.step ≠ none
  step_pos : ∀ s ∈ i.step, 0 < s
  ordered : i.step = none → i.first r ≤ i.last r
  has : ∀ v, i.Denotes r v → r.Has v

/-- What the code makes of numbers that `int` has read. -/
def values? (i : Item Int) : Option (List Int) :=
  match i.step with
  | some s => if s ≤ 0 then none else some (range (i.first r) (i.last r + 1) s)
  | none =>
    match i.base with
    | .all => none
    | .single n => some [n]
    | .between n m => if m < n then none else some (range n (m + 1) 1)

end Item

/-! ## What the code does with an item -/

section

variable {u : DecimalDigits} {r : FieldRange}

theorem int?_star (u : DecimalDigits) : int? u ['*'] = none := by
  have hstar : u.value '*' = none := u.ascii '*' (by decide)
  have htrim : Text.sign (trim ['*']) = (1, ['*']) := by decide
  unfold int?
  rw [htrim]
  dsimp only
  rw [digits?, if_neg (by decide), hstar]

theorem parsePart_eq (u : DecimalDigits) (r : FieldRange) (field : String) (part : List Char) :
    (parsePart u r field part).toOption = ((Item.cut part).read (int? u)).bind (Item.values? r) := by
  unfold parsePart Item.cut
  cases Lib.splitFirst '/' part with
  | some pair =>
    obtain ⟨base, stepStr⟩ := pair
    dsimp only [Item.read]
    cases hstep : int? u stepStr with
    | none => cases (Item.cutBase base).read (int? u) <;> rfl
    | some step =>
      dsimp only
      by_cases hpos : step ≤ 0
      · rw [if_pos hpos]
        cases (Item.cutBase base).read (int? u) <;> simp [Item.values?, hpos, Except.toOption]
      · rw [if_neg hpos]
        unfold Item.cutBase
        by_cases hstar : base = ['*']
        · rw [if_pos hstar, if_pos hstar]
          simp [Base.read, Item.values?, hpos, Item.first, Item.last, Except.toOption]
        · rw [if_neg hstar, if_neg hstar]
          cases Lib.splitFirst '-' base with
          | none => cases hbase : int? u base <;> simp [Base.read, hbase, Item.values?, hpos, Item.first, Item.last, Except.toOption]
          | some pair =>
            obtain ⟨a, b⟩ := pair
            cases ha : int? u a <;> cases hb : int? u b <;>
              simp [Base.read, ha, hb, Item.values?, hpos, Item.first, Item.last, Except.toOption]
  | none =>
    dsimp only [Item.read]
    unfold Item.cutBase
    by_cases hstar : part = ['*']
    · rw [if_pos hstar, hstar]
      have hdash : Lib.splitFirst '-' ['*'] = none := by decide
      rw [hdash, int?_star]
      rfl
    · rw [if_neg hstar]
      cases Lib.splitFirst '-' part with
      | none => cases hval : int? u part <;> simp [Base.read, hval, Item.values?, Except.toOption]
      | some pair =>
        obtain ⟨a, b⟩ := pair
        cases ha : int? u a with
        | none => simp [Base.read, ha, Except.toOption]
        | some lo =>
          cases hb : int? u b with
          | none => simp [Base.read, ha, hb, Except.toOption]
          | some hi =>
            by_cases horder : hi < lo
            · simp [Base.read, ha, hb, Item.values?, horder, Except.toOption]
            · simp [Base.read, ha, hb, Item.values?, horder, Except.toOption]

theorem parsePart_error {field : String} {part : List Char} {e : PyError} (h : parsePart u r field part = .error e) :
    ∃ reason, e = parseError field reason := by
  unfold parsePart at h
  split at h
  · split at h
    · exact ⟨_, (Except.error.inj h).symm⟩
    · split at h
      · exact ⟨_, (Except.error.inj h).symm⟩
      · split at h
        · cases h
        · split at h
          · split at h
            · cases h
            · exact ⟨_, (Except.error.inj h).symm⟩
          · split at h
            · cases h
            · exact ⟨_, (Except.error.inj h).symm⟩
  · split at h
    · split at h
      · split at h
        · exact ⟨_, (Except.error.inj h).symm⟩
        · cases h
      · exact ⟨_, (Except.error.inj h).symm⟩
    · split at h
      · cases h
      · exact ⟨_, (Except.error.inj h).symm⟩

namespace Item

theorem values?_eq_some {i : Item Int} {vs : List Int} (h : i.values? r = some vs) :
    (i.base = .all → i.step ≠ none) ∧ (∀ s ∈ i.step, 0 < s) ∧ (i.step = none → i.first r ≤ i.last r) ∧
      ∀ v, v ∈ vs ↔ i.Denotes r v := by
  obtain ⟨base, step⟩ := i
  cases step with
  | some s =>
    unfold values? at h
    dsimp only at h
    split at h
    · cases h
    · next hpos =>
      cases h
      have hpos : 0 < s := not_le.mp hpos
      exact ⟨nofun, fun t ht => Option.some.inj ht ▸ hpos, nofun, fun v => mem_range hpos⟩
  | none =>
    cases base with
    | all => cases h
    | single n =>
      cases h
      refine ⟨nofun, nofun, fun _ => le_rfl, fun v => ?_⟩
      rw [List.mem_singleton]
      change v = n ↔ n ≤ v ∧ v ≤ n ∧ (1 : Int) ∣ v - n
      have hone := Int.one_dvd (v - n)
      omega
    | between n m =>
      unfold values? at h
      dsimp only at h
      split at h
      · cases h
      · next horder =>
        cases h
        exact ⟨nofun, nofun, fun _ => not_lt.mp horder, fun v => mem_range one_pos⟩

theorem exists_values? {i : Item Int} (hstar : i.base = .all → i.step ≠ none) (hpos : ∀ s ∈ i.step, 0 < s)
    (hordered : i.step = none → i.first r ≤ i.last r) : ∃ vs, i.values? r = some vs := by
  obtain ⟨base, step⟩ := i
  cases step with
  | some s => exact ⟨_, if_neg (not_le.mpr (hpos s rfl))⟩
  | none =>
    cases base with
    | all => exact absurd rfl (hstar rfl)
    | single n => exact ⟨_, rfl⟩
    | between n m => exact ⟨_, if_neg (not_lt.mpr (hordered rfl))⟩

/-- The code tolerates an item when it makes values of it, which all lie in the range. -/
theorem tolerated_iff (i : Item Int) : i.Tolerated r ↔ ∃ vs, i.values? r = some vs ∧ ∀ v ∈ vs, r.Has v := by
  constructor
  · intro h
    obtain ⟨vs, hvs⟩ := exists_values? h.not_star h.step_pos h.ordered
    exact ⟨vs, hvs, fun v hv => h.has v (((values?_eq_some hvs).2.2.2 v).mp hv)⟩
  · rintro ⟨vs, hvs, hhas⟩
    obtain ⟨hstar, hpos, hordered, hmem⟩ := values?_eq_some hvs
    exact ⟨hstar, hpos, hordered, fun v hv => hhas v ((hmem v).mpr hv)⟩

/-- A documented item is tolerated, unless it is a `*` alone. -/
theorem Valid.tolerated {i : Item Int} (h : i.Valid r) (hstar : i.base = .all → i.step ≠ none) : i.Tolerated r := by
  refine ⟨hstar, h.step_pos, fun _ => h.ordered, fun v hv => ?_⟩
  obtain ⟨hfirst, hlast, -⟩ := hv
  have hhas := h.has
  obtain ⟨base, step⟩ := i
  cases base with
  | all => exact ⟨hfirst, hlast⟩
  | single n =>
    have hn := hhas n List.mem_cons_self
    cases step with
    | none => exact ⟨hn.1.trans hfirst, hlast.trans hn.2⟩
    | some s => exact ⟨hn.1.trans hfirst, hlast⟩
  | between n m =>
    have hn := hhas n List.mem_cons_self
    have hm := hhas m (List.mem_cons_of_mem n List.mem_cons_self)
    exact ⟨hn.1.trans hfirst, hlast.trans hm.2⟩

theorem denotes_first {i : Item Int} (h : i.first r ≤ i.last r) : i.Denotes r (i.first r) :=
  ⟨le_rfl, h, by rw [sub_self]; exact dvd_zero _⟩

theorem Tolerated.valid {i : Item Int} (h : i.Tolerated r) (hordered : i.first r ≤ i.last r) (hlast : i.last r ≤ r.max) :
    i.Valid r := by
  refine ⟨?_, h.step_pos, hordered⟩
  have hfirst := h.has _ (denotes_first hordered)
  obtain ⟨base, step⟩ := i
  cases base with
  | all => exact nofun
  | single n =>
    intro k hk
    obtain rfl := List.mem_singleton.mp hk
    exact hfirst
  | between n m =>
    intro k hk
    rcases List.mem_cons.mp hk with rfl | hk
    · exact hfirst
    · obtain rfl := List.mem_singleton.mp hk
      exact ⟨hfirst.1.trans hordered, hlast⟩

theorem Valid.last_le {i : Item Int} (h : i.Valid r) : i.last r ≤ r.max := by
  have hhas := h.has
  obtain ⟨base, step⟩ := i
  cases base with
  | all => exact le_rfl
  | single n =>
    cases step with
    | none => exact (hhas n List.mem_cons_self).2
    | some s => exact le_rfl
  | between n m => exact (hhas m (List.mem_cons_of_mem n List.mem_cons_self)).2

end Item

end

/-! ## Numbers as documented -/

/-- Digits of ASCII. -/
structure Numeral where
  digits : List Char
  ne_nil : digits ≠ []
  isDigit : ∀ c ∈ digits, c.isDigit = true

def Numeral.value (n : Numeral) : Nat := n.digits.foldl (fun v c => v * 10 + (c.toNat - 48)) 0

theorem toNat_of_isDigit {c : Char} (h : c.isDigit = true) : 48 ≤ c.toNat ∧ c.toNat ≤ 57 :=
  Char.isDigit_iff_toNat.mp h

theorem ne_of_isDigit {c d : Char} (h : c.isDigit = true) (hd : d.isDigit = false) : c ≠ d := by
  rintro rfl
  rw [h] at hd
  cases hd

theorem isSpace_of_isDigit {c : Char} (h : c.isDigit = true) : Text.isSpace c = false := by
  have hc := toNat_of_isDigit h
  simp only [Text.isSpace, Bool.or_eq_false_iff, Bool.and_eq_false_iff, decide_eq_false_iff_not]
  omega

theorem digits?_of_isDigit (u : DecimalDigits) {cs : List Char} (h : ∀ c ∈ cs, c.isDigit = true) (value count : Nat) :
    digits? u cs value count true = some (cs.foldl (fun v c => v * 10 + (c.toNat - 48)) value, count + cs.length) := by
  induction cs generalizing value count with
  | nil => rfl
  | cons c cs ih =>
    have hc := h c List.mem_cons_self
    have hvalue := u.ascii c (by have := toNat_of_isDigit hc; omega)
    rw [digits?, if_neg (ne_of_isDigit hc (by decide)), hvalue, if_pos hc]
    dsimp only
    rw [ih (fun d hd => h d (List.mem_cons_of_mem c hd)), List.foldl_cons, List.length_cons]
    congr 2
    omega

theorem dropWhile_reverse_self {p : Char → Bool} {cs : List Char} (h : ∀ c ∈ cs, p c = false) :
    ((cs.dropWhile p).reverse.dropWhile p).reverse = cs := by
  have hkeep {l : List Char} (hl : ∀ c ∈ l, p c = false) : l.dropWhile p = l := by
    cases l with
    | nil => rfl
    | cons c l => exact List.dropWhile_cons_of_neg (by simp [hl c List.mem_cons_self])
  rw [hkeep h, hkeep fun c hc => h c (List.mem_reverse.mp hc), List.reverse_reverse]

/-- `int` reads a numeral, if it is not too long. -/
theorem int?_digits (u : DecimalDigits) (n : Numeral) :
    int? u n.digits = if n.digits.length ≤ maxStrDigits then some (n.value : Int) else none := by
  obtain ⟨digits, hne, hdigit⟩ := n
  have htrim : trim digits = digits := by
    refine dropWhile_reverse_self fun c hc => ?_
    rw [isBlank, isSpace_of_isDigit (hdigit c hc), Bool.false_and]
  cases digits with
  | nil => exact absurd rfl hne
  | cons c cs =>
    have hc := hdigit c List.mem_cons_self
    have hsign : Text.sign (c :: cs) = (1, c :: cs) := by
      have hminus : c ≠ '-' := ne_of_isDigit hc (by decide)
      have hplus : c ≠ '+' := ne_of_isDigit hc (by decide)
      unfold Text.sign
      split
      · next heq => exact absurd (List.cons.inj heq).1 hminus
      · next heq => exact absurd (List.cons.inj heq).1 hplus
      · rfl
    have hread : digits? u (c :: cs) 0 0 false = digits? u (c :: cs) 0 0 true := by
      have hscore : c ≠ '_' := ne_of_isDigit hc (by decide)
      rw [digits?, digits?, if_neg hscore, if_neg hscore]
    unfold int?
    rw [htrim, hsign]
    dsimp only
    rw [hread, digits?_of_isDigit u hdigit, Nat.zero_add]
    dsimp only
    rw [Int.one_mul]
    rfl

namespace Item

theorem baseText_cutBase (base : List Char) : baseText (cutBase base) = base := by
  unfold cutBase
  split
  · next hstar => exact hstar.symm
  · split
    · next n m hsplit => exact (Lib.splitFirst_eq_some hsplit).1.symm
    · rfl

/-- Nothing is lost when a part is cut. -/
theorem text_cut (part : List Char) : (cut part).text = part := by
  unfold cut
  split
  · next base s hsplit =>
    change baseText (cutBase base) ++ '/' :: s = part
    rw [baseText_cutBase, (Lib.splitFirst_eq_some hsplit).1]
  · exact baseText_cutBase part

theorem not_mem_digits {d : Char} (hd : d.isDigit = false) (n : Numeral) : d ∉ n.digits := fun hmem =>
  ne_of_isDigit (n.isDigit d hmem) hd rfl

theorem cutBase_baseText (base : Base Numeral) : cutBase (baseText (base.map Numeral.digits)) = base.map Numeral.digits := by
  cases base with
  | all => rfl
  | single n =>
    have hstar : n.digits ≠ ['*'] := fun heq => not_mem_digits (by decide : ('*').isDigit = false) n (by simp [heq])
    change cutBase n.digits = .single n.digits
    rw [cutBase, if_neg hstar, Lib.splitFirst_eq_none (not_mem_digits (by decide) n)]
  | between n m =>
    have hstar : n.digits ++ '-' :: m.digits ≠ ['*'] := fun heq => by
      have hmem : '-' ∈ n.digits ++ '-' :: m.digits := List.mem_append_right _ List.mem_cons_self
      rw [heq] at hmem
      exact absurd hmem (by decide)
    change cutBase (n.digits ++ '-' :: m.digits) = .between n.digits m.digits
    rw [cutBase, if_neg hstar, Lib.splitFirst_append (not_mem_digits (by decide) n)]

theorem mem_baseText {base : Base Numeral} {c : Char} (h : c ∈ baseText (base.map Numeral.digits)) :
    c.isDigit = true ∨ c = '*' ∨ c = '-' := by
  cases base with
  | all => exact .inr (.inl (List.mem_singleton.mp h))
  | single n => exact .inl (n.isDigit c h)
  | between n m =>
    rcases List.mem_append.mp h with h | h
    · exact .inl (n.isDigit c h)
    · rcases List.mem_cons.mp h with rfl | h
      · exact .inr (.inr rfl)
      · exact .inl (m.isDigit c h)

theorem mem_text {i : Item Numeral} {c : Char} (h : c ∈ (i.map Numeral.digits).text) :
    c.isDigit = true ∨ c = '*' ∨ c = '-' ∨ c = '/' := by
  obtain ⟨base, step⟩ := i
  have hbase (h : c ∈ baseText (base.map Numeral.digits)) : c.isDigit = true ∨ c = '*' ∨ c = '-' ∨ c = '/' := by
    rcases mem_baseText h with h | h | h
    · exact .inl h
    · exact .inr (.inl h)
    · exact .inr (.inr (.inl h))
  cases step with
  | none => exact hbase h
  | some s =>
    rcases List.mem_append.mp h with h | h
    · exact hbase h
    · rcases List.mem_cons.mp h with rfl | h
      · exact .inr (.inr (.inr rfl))
      · exact .inl (s.isDigit c h)

theorem cut_text (i : Item Numeral) : cut (i.map Numeral.digits).text = i.map Numeral.digits := by
  obtain ⟨base, step⟩ := i
  have hslash : '/' ∉ baseText (base.map Numeral.digits) := fun h => by
    rcases mem_baseText h with h | h | h
    · revert h; decide
    · revert h; decide
    · revert h; decide
  cases step with
  | none =>
    change cut (baseText (base.map Numeral.digits)) = ⟨base.map Numeral.digits, none⟩
    rw [cut, Lib.splitFirst_eq_none hslash]
    dsimp only
    rw [cutBase_baseText]
  | some s =>
    change cut (baseText (base.map Numeral.digits) ++ '/' :: s.digits) = ⟨base.map Numeral.digits, some s.digits⟩
    rw [cut, Lib.splitFirst_append hslash]
    dsimp only
    rw [cutBase_baseText]

theorem strip_text (i : Item Numeral) : Text.strip (i.map Numeral.digits).text = (i.map Numeral.digits).text := by
  refine dropWhile_reverse_self fun c hc => ?_
  rcases mem_text hc with h | rfl | rfl | rfl
  · exact isSpace_of_isDigit h
  · decide
  · decide
  · decide

theorem comma_not_mem_text (i : Item Numeral) : ',' ∉ (i.map Numeral.digits).text := fun h => by
  have := mem_text h
  revert this
  decide

theorem read_numerals (u : DecimalDigits) (i : Item Numeral) :
    (i.map Numeral.digits).read (int? u) =
      if ∀ n ∈ i.numbers, n.digits.length ≤ maxStrDigits then some (i.map fun n => (n.value : Int)) else none :=
  read_map (int?_digits u) i

/-- A cut whose numbers are digits is that of a documented item. -/
theorem exists_numerals {i : Item (List Char)} (h : ∀ n ∈ i.numbers, n ≠ [] ∧ ∀ c ∈ n, c.isDigit = true) :
    ∃ j : Item Numeral, j.map Numeral.digits = i := by
  obtain ⟨base, step⟩ := i
  have hbase : ∃ b : Base Numeral, b.map Numeral.digits = base := by
    cases base with
    | all => exact ⟨.all, rfl⟩
    | single n =>
      obtain ⟨hne, hdigit⟩ := h n (List.mem_append_left _ List.mem_cons_self)
      exact ⟨.single ⟨n, hne, hdigit⟩, rfl⟩
    | between n m =>
      obtain ⟨hn, hndigit⟩ := h n (List.mem_append_left _ List.mem_cons_self)
      obtain ⟨hm, hmdigit⟩ := h m (List.mem_append_left _ (List.mem_cons_of_mem n List.mem_cons_self))
      exact ⟨.between ⟨n, hn, hndigit⟩ ⟨m, hm, hmdigit⟩, rfl⟩
  obtain ⟨b, rfl⟩ := hbase
  cases step with
  | none => exact ⟨⟨b, none⟩, rfl⟩
  | some s =>
    obtain ⟨hne, hdigit⟩ := h s (List.mem_append_right _ (by simp))
    exact ⟨⟨b, some ⟨s, hne, hdigit⟩⟩, rfl⟩

end Item

/-! ## Fields -/

namespace Item

def written (i : Item Numeral) : List Char := (i.map Numeral.digits).text

def meant (i : Item Numeral) : Item Int := i.map fun n => (n.value : Int)

end Item

/-- The field is a list of documented items. -/
structure Spells (r : FieldRange) (items : List (Item Numeral)) (field : String) : Prop where
  ne_nil : items ≠ []
  valid : ∀ i ∈ items, i.meant.Valid r
  joined : [','].intercalate (items.map Item.written) = field.toList

/-- A documented field is read as what it denotes, and any other is refused. -/
structure Accords (u : DecimalDigits) (r : FieldRange) (field : String) : Prop where
  accepted : ∀ items, Spells r items field → ∃ vs, parseCronField u r field = .ok vs ∧
    (∀ v, v ∈ vs.values ↔ ∃ i ∈ items, i.meant.Denotes r v) ∧ vs.values ≠ []
  refused : (¬ ∃ items, Spells r items field) → ∃ reason, parseCronField u r field = .error (parseError field reason)

def parts (field : String) : List (List Char) := field.toList.splitOn ','

section

variable {u : DecimalDigits} {r : FieldRange} {field : String}

theorem Spells.parts_eq {items : List (Item Numeral)} (h : Spells r items field) : parts field = items.map Item.written := by
  rw [parts, ← h.joined, List.splitOn_intercalate]
  · intro part hpart
    obtain ⟨i, -, rfl⟩ := List.mem_map.mp hpart
    exact i.comma_not_mem_text
  · simpa using h.ne_nil

/-- `int` reads the numbers of the part, and the code makes nothing but values of the range of them. -/
def Reads (u : DecimalDigits) (r : FieldRange) (part : List Char) (i : Item Int) : Prop :=
  (Item.cut (Text.strip part)).read (int? u) = some i ∧ i.Tolerated r

theorem parsePart_eq_ok {part : List Char} {ws : List Int} : parsePart u r field part = .ok ws ↔
    ∃ i, (Item.cut part).read (int? u) = some i ∧ i.values? r = some ws := by
  rw [← Option.bind_eq_some_iff, ← parsePart_eq u r field part]
  cases parsePart u r field part <;> simp [Except.toOption]

theorem parseCronField_loop (h : field ≠ "*") {vs : FieldValues r} : parseCronField u r field = .ok vs ↔
    ∃ rs, ((parts field).mapM fun part => parsePart u r field (Text.strip part)) = .ok rs ∧ rs.flatten = vs.values := by
  obtain ⟨values, has⟩ := vs
  unfold parseCronField
  rw [if_neg h, Lib.Except.bind_eq_ok]
  refine exists_congr fun rs => and_congr_right fun _ => ?_
  dsimp only
  split
  · next v hv =>
    refine iff_of_false nofun fun hvalues => ?_
    have hout := List.find?_some hv
    have hmem := List.mem_of_find?_eq_some hv
    rw [hvalues] at hmem
    simp [has v hmem] at hout
  · simp

theorem parseCronField_isOk_iff (h : field ≠ "*") :
    (∃ vs, parseCronField u r field = .ok vs) ↔ ∀ part ∈ parts field, ∃ i, Reads u r part i := by
  constructor
  · rintro ⟨vs, hvs⟩ part hpart
    obtain ⟨rs, hrs, hvalues⟩ := (parseCronField_loop h).mp hvs
    obtain ⟨ws, hws⟩ := Lib.Except.exists_mapM_eq_ok.mp ⟨rs, hrs⟩ part hpart
    obtain ⟨i, hread, hvaluesOf⟩ := parsePart_eq_ok.mp hws
    refine ⟨i, hread, i.tolerated_iff.mpr ⟨ws, hvaluesOf, fun v hv => vs.has v ?_⟩⟩
    rw [← hvalues, Lib.Except.mem_flatten_of_mapM hrs]
    exact ⟨part, hpart, ws, hws, hv⟩
  · intro hreads
    have hparts : ∀ part ∈ parts field, ∃ ws, parsePart u r field (Text.strip part) = .ok ws := by
      intro part hpart
      obtain ⟨i, hread, htolerated⟩ := hreads part hpart
      obtain ⟨ws, hws, -⟩ := i.tolerated_iff.mp htolerated
      exact ⟨ws, parsePart_eq_ok.mpr ⟨i, hread, hws⟩⟩
    obtain ⟨rs, hrs⟩ := Lib.Except.exists_mapM_eq_ok.mpr hparts
    refine ⟨⟨rs.flatten, fun v hv => ?_⟩, (parseCronField_loop h).mpr ⟨rs, hrs, rfl⟩⟩
    obtain ⟨part, hpart, ws, hws, hmem⟩ := (Lib.Except.mem_flatten_of_mapM hrs v).mp hv
    obtain ⟨i, hread, htolerated⟩ := hreads part hpart
    obtain ⟨j, hread', hvaluesOf⟩ := parsePart_eq_ok.mp hws
    cases hread.symm.trans hread'
    obtain ⟨ws', hws', hhas⟩ := i.tolerated_iff.mp htolerated
    cases hvaluesOf.symm.trans hws'
    exact hhas v hmem

theorem mem_of_parseCronField (h : field ≠ "*") {vs : FieldValues r} (hvs : parseCronField u r field = .ok vs) (v : Int) :
    v ∈ vs.values ↔ ∃ part ∈ parts field, ∃ i, Reads u r part i ∧ i.Denotes r v := by
  have hreads := (parseCronField_isOk_iff h).mp ⟨vs, hvs⟩
  obtain ⟨rs, hrs, hvalues⟩ := (parseCronField_loop h).mp hvs
  rw [← hvalues, Lib.Except.mem_flatten_of_mapM hrs]
  refine exists_congr fun part => and_congr_right fun hpart => ?_
  constructor
  · rintro ⟨ws, hws, hmem⟩
    obtain ⟨i, hread, hvaluesOf⟩ := parsePart_eq_ok.mp hws
    obtain ⟨j, hread', htolerated⟩ := hreads part hpart
    cases hread.symm.trans hread'
    exact ⟨i, ⟨hread, htolerated⟩, ((Item.values?_eq_some hvaluesOf).2.2.2 v).mp hmem⟩
  · rintro ⟨i, ⟨hread, htolerated⟩, hdenotes⟩
    obtain ⟨ws, hws, -⟩ := i.tolerated_iff.mp htolerated
    exact ⟨ws, parsePart_eq_ok.mpr ⟨i, hread, hws⟩, ((Item.values?_eq_some hws).2.2.2 v).mpr hdenotes⟩

theorem parseCronField_error {e : PyError} (h : parseCronField u r field = .error e) :
    ∃ reason, e = parseError field reason := by
  unfold parseCronField at h
  split at h
  · cases h
  · cases hparts : ((field.toList.splitOn ',').mapM fun part => parsePart u r field (Text.strip part)) with
    | error e' =>
      rw [hparts] at h
      cases h
      obtain ⟨part, -, hpart⟩ := Lib.Except.exists_of_mapM_eq_error hparts
      exact parsePart_error hpart
    | ok rs =>
      rw [hparts, Lib.Except.ok_bind] at h
      dsimp only at h
      split at h
      · exact ⟨_, (Except.error.inj h).symm⟩
      · cases h

/-! ## Where the field is parsed as documented -/

/-- The part has no blanks around it, its numbers are digits, and where the code reads a range of them, the range is not
reversed and does not go beyond the field's. -/
structure WellWritten (u : DecimalDigits) (r : FieldRange) (part : List Char) : Prop where
  unpadded : Text.strip part = part
  numerals : ∀ n ∈ (Item.cut part).numbers, n ≠ [] ∧ ∀ c ∈ n, c.isDigit = true
  within : ∀ i, Reads u r part i → i.first r ≤ i.last r ∧ i.last r ≤ r.max

/-- A documented list is a single `*`, or has no `*` without a step and no number that is too long for `int`. A list
whose parts the code reads is written as documented. -/
structure Plain (u : DecimalDigits) (r : FieldRange) (field : String) : Prop where
  listed : ∀ items, Spells r items field → items = [⟨.all, none⟩] ∨
    ∀ i ∈ items, (i.base = .all → i.step ≠ none) ∧ ∀ n ∈ i.numbers, n.digits.length ≤ maxStrDigits
  written : (∀ part ∈ parts field, ∃ i, Reads u r part i) → ∀ part ∈ parts field, WellWritten u r part

theorem Item.map_base_eq_all {i : Item ν} {f : ν → μ} : (i.map f).base = .all ↔ i.base = .all := by
  obtain ⟨base, step⟩ := i
  cases base <;> simp [Item.map, Base.map]

theorem Item.map_step_eq_none {i : Item ν} {f : ν → μ} : (i.map f).step = none ↔ i.step = none := Option.map_eq_none_iff

theorem Item.numbers_map (i : Item ν) (f : ν → μ) : (i.map f).numbers = i.numbers.map f := by
  obtain ⟨base, step⟩ := i
  cases base <;> cases step <;> rfl

/-- The code reads a documented item as what it means, unless it is a `*` alone or has a number that is too long. -/
theorem reads_written {i : Item Numeral} {j : Item Int} : Reads u r i.written j ↔
    (∀ n ∈ i.numbers, n.digits.length ≤ maxStrDigits) ∧ j = i.meant ∧ j.Tolerated r := by
  unfold Reads Item.written
  rw [i.strip_text, i.cut_text, i.read_numerals]
  by_cases hshort : ∀ n ∈ i.numbers, n.digits.length ≤ maxStrDigits
  · rw [if_pos hshort, and_iff_right hshort, Option.some.injEq, eq_comm]
    exact Iff.rfl
  · rw [if_neg hshort]
    exact iff_of_false nofun fun h => hshort h.1

theorem not_reads_star (j : Item Int) : ¬ Reads u r ['*'] j := by
  rintro ⟨hread, htolerated⟩
  have hstar : (Item.cut (Text.strip ['*'])).read (int? u) = some ⟨.all, none⟩ := rfl
  cases hstar.symm.trans hread
  exact htolerated.not_star rfl rfl

theorem parts_star : parts "*" = [['*']] := by decide

theorem spells_star : Spells r [⟨.all, none⟩] "*" where
  ne_nil := by simp
  valid i hi := by
    obtain rfl := List.mem_singleton.mp hi
    exact ⟨nofun, nofun, r.le⟩
  joined := rfl

theorem eq_star_of_spells {items : List (Item Numeral)} (h : Spells r items "*") : items = [⟨.all, none⟩] := by
  have hparts := h.parts_eq
  rw [parts_star] at hparts
  obtain ⟨i, rest, rfl, hi, hrest⟩ := List.map_eq_cons_iff.mp hparts.symm
  rw [List.map_eq_nil_iff] at hrest
  have hcut := i.cut_text
  change Item.cut i.written = _ at hcut
  rw [hi] at hcut
  have hbase : i.base = .all := Item.map_base_eq_all.mp (by rw [← hcut]; rfl)
  have hstep : i.step = none := Item.map_step_eq_none.mp (by rw [← hcut]; rfl)
  obtain ⟨base, step⟩ := i
  subst hbase hstep hrest
  rfl

theorem Plain.accepted (h : Plain u r field) {items : List (Item Numeral)} (hitems : Spells r items field) :
    ∃ vs, parseCronField u r field = .ok vs ∧ (∀ v, v ∈ vs.values ↔ ∃ i ∈ items, i.meant.Denotes r v) ∧ vs.values ≠ [] := by
  have hnonempty {vs : FieldValues r} (hmem : ∀ v, v ∈ vs.values ↔ ∃ i ∈ items, i.meant.Denotes r v) : vs.values ≠ [] := by
    obtain ⟨i, hi⟩ := List.exists_mem_of_ne_nil items hitems.ne_nil
    exact List.ne_nil_of_mem ((hmem _).mpr ⟨i, hi, Item.denotes_first (hitems.valid i hi).ordered⟩)
  by_cases hstar : field = "*"
  · subst hstar
    obtain rfl := eq_star_of_spells hitems
    have hmem (v : Int) : v ∈ range r.min (r.max + 1) 1 ↔
        ∃ i ∈ [(⟨.all, none⟩ : Item Numeral)], i.meant.Denotes r v := by
      rw [mem_range one_pos]
      simp only [List.mem_singleton, exists_eq_left]
      exact Iff.rfl
    exact ⟨_, if_pos rfl, hmem, @hnonempty ⟨_, fun _ => has_range⟩ hmem⟩
  · have hall := (h.listed items hitems).resolve_left fun heq => hstar (by
      have hjoined := hitems.joined
      rw [heq] at hjoined
      exact String.toList_inj.mp hjoined.symm)
    have hreads : ∀ i ∈ items, Reads u r i.written i.meant := fun i hi =>
      reads_written.mpr ⟨(hall i hi).2, rfl, (hitems.valid i hi).tolerated fun hbase hstep =>
        (hall i hi).1 (Item.map_base_eq_all.mp hbase) (Item.map_step_eq_none.mp hstep)⟩
    obtain ⟨vs, hvs⟩ := (parseCronField_isOk_iff (u := u) (r := r) hstar).mpr fun part hpart => by
      rw [hitems.parts_eq] at hpart
      obtain ⟨i, hi, rfl⟩ := List.mem_map.mp hpart
      exact ⟨_, hreads i hi⟩
    have hmem (v : Int) : v ∈ vs.values ↔ ∃ i ∈ items, i.meant.Denotes r v := by
      rw [mem_of_parseCronField hstar hvs, hitems.parts_eq]
      simp only [List.mem_map, exists_exists_and_eq_and]
      refine exists_congr fun i => and_congr_right fun hi => ?_
      constructor
      · rintro ⟨j, hj, hv⟩
        obtain ⟨-, rfl, -⟩ := reads_written.mp hj
        exact hv
      · intro hv
        exact ⟨_, hreads i hi, hv⟩
    exact ⟨vs, hvs, hmem, hnonempty hmem⟩

/-- Parts that are read and well written are those of documented items. -/
theorem exists_spells (hreads : ∀ part ∈ parts field, ∃ i, Reads u r part i)
    (hwritten : ∀ part ∈ parts field, WellWritten u r part) : ∃ items, Spells r items field := by
  have hitem : ∀ part ∈ parts field, ∃ i : Item Numeral, i.meant.Valid r ∧ i.written = part := by
    intro part hpart
    obtain ⟨hunpadded, hnumerals, hwithin⟩ := hwritten part hpart
    obtain ⟨i, hi⟩ := Item.exists_numerals hnumerals
    have hpart' : i.written = part := by
      rw [Item.written, hi, Item.text_cut]
    obtain ⟨j, hj⟩ := hreads part hpart
    obtain ⟨hordered, hlast⟩ := hwithin j hj
    rw [← hpart'] at hj
    obtain ⟨-, rfl, htolerated⟩ := reads_written.mp hj
    exact ⟨i, htolerated.valid hordered hlast, hpart'⟩
  have hlist : ∀ texts : List (List Char), (∀ part ∈ texts, ∃ i : Item Numeral, i.meant.Valid r ∧ i.written = part) →
      ∃ items : List (Item Numeral), (∀ i ∈ items, i.meant.Valid r) ∧ items.map Item.written = texts := by
    intro texts htexts
    induction texts with
    | nil => exact ⟨[], nofun, rfl⟩
    | cons part texts ih =>
      obtain ⟨i, hvalid, rfl⟩ := htexts part List.mem_cons_self
      obtain ⟨items, hitems, rfl⟩ := ih fun p hp => htexts p (List.mem_cons_of_mem _ hp)
      exact ⟨i :: items, List.forall_mem_cons.mpr ⟨hvalid, hitems⟩, rfl⟩
  obtain ⟨items, hvalid, hparts⟩ := hlist (parts field) hitem
  refine ⟨items, ?_, hvalid, ?_⟩
  · rintro rfl
    exact List.splitOn_ne_nil ',' field.toList hparts.symm
  · rw [hparts, parts, List.intercalate_splitOn]

theorem Plain.refused (h : Plain u r field) (hundocumented : ¬ ∃ items, Spells r items field) :
    ∃ reason, parseCronField u r field = .error (parseError field reason) := by
  have hstar : field ≠ "*" := by
    rintro rfl
    exact hundocumented ⟨_, spells_star⟩
  cases hparse : parseCronField u r field with
  | error e =>
    obtain ⟨reason, rfl⟩ := parseCronField_error hparse
    exact ⟨reason, rfl⟩
  | ok vs =>
    have hreads := (parseCronField_isOk_iff hstar).mp ⟨vs, hparse⟩
    exact absurd (exists_spells hreads (h.written hreads)) hundocumented

/-- **A field is parsed as documented just when it is plain.** -/
theorem accords_iff (u : DecimalDigits) (r : FieldRange) (field : String) : Accords u r field ↔ Plain u r field := by
  constructor
  · intro h
    constructor
    · intro items hitems
      obtain ⟨vs, hvs, -⟩ := h.accepted items hitems
      by_cases hstar : field = "*"
      · subst hstar
        exact .inl (eq_star_of_spells hitems)
      · refine .inr fun i hi => ?_
        obtain ⟨j, hj⟩ := (parseCronField_isOk_iff hstar).mp ⟨vs, hvs⟩ i.written
          (by rw [hitems.parts_eq]; exact List.mem_map_of_mem hi)
        obtain ⟨hshort, rfl, htolerated⟩ := reads_written.mp hj
        exact ⟨fun hbase hstep => htolerated.not_star (Item.map_base_eq_all.mpr hbase) (Item.map_step_eq_none.mpr hstep),
          hshort⟩
    · intro hreads
      have hstar : field ≠ "*" := by
        rintro rfl
        obtain ⟨j, hj⟩ := hreads ['*'] (by rw [parts_star]; exact List.mem_cons_self)
        exact not_reads_star j hj
      obtain ⟨vs, hvs⟩ := (parseCronField_isOk_iff hstar).mpr hreads
      by_cases hdocumented : ∃ items, Spells r items field
      · obtain ⟨items, hitems⟩ := hdocumented
        rw [hitems.parts_eq]
        intro part hpart
        obtain ⟨i, hi, rfl⟩ := List.mem_map.mp hpart
        refine ⟨i.strip_text, fun n hn => ?_, fun j hj => ?_⟩
        · rw [Item.written, i.cut_text, Item.numbers_map] at hn
          obtain ⟨numeral, -, rfl⟩ := List.mem_map.mp hn
          exact ⟨numeral.ne_nil, numeral.isDigit⟩
        · obtain ⟨-, rfl, -⟩ := reads_written.mp hj
          exact ⟨(hitems.valid i hi).ordered, (hitems.valid i hi).last_le⟩
      · obtain ⟨reason, hrefused⟩ := h.refused hdocumented
        rw [hvs] at hrefused
        cases hrefused
  · intro h
    exact ⟨fun items hitems => h.accepted hitems, h.refused⟩

end

def asciiDigits : DecimalDigits where
  value c := if c.isDigit then some (c.toNat - 48) else none
  ascii _ _ := rfl

def five : Numeral := ⟨['5'], by simp, by simp⟩

/-- `70/5` is no field of minutes, but is accepted, as one without values; `*,5` is one, and is refused. -/
theorem two_fields_misparsed : ¬ Accords asciiDigits minuteRange "70/5" ∧ ¬ Accords asciiDigits minuteRange "*,5" := by
  constructor
  · intro h
    have hundocumented : ¬ ∃ items, Spells minuteRange items "70/5" := by
      rintro ⟨items, hitems⟩
      have hparts : parts "70/5" = ["70/5".toList] := by decide
      rw [hitems.parts_eq] at hparts
      obtain ⟨i, rest, rfl, hi, -⟩ := List.map_eq_cons_iff.mp hparts
      have hcut := i.cut_text
      change Item.cut i.written = _ at hcut
      have hseventy : Item.cut "70/5".toList = ⟨.single ['7', '0'], some ['5']⟩ := by rfl
      rw [hi, hseventy] at hcut
      obtain ⟨base, step⟩ := i
      cases base with
      | all => cases hcut
      | between n m => cases hcut
      | single n =>
        have hn : n.digits = ['7', '0'] := (Base.single.inj (congrArg Item.base hcut)).symm
        have hhas := (hitems.valid _ List.mem_cons_self).has n.value List.mem_cons_self
        unfold Numeral.value at hhas
        rw [hn] at hhas
        revert hhas
        decide
    obtain ⟨reason, hrefused⟩ := h.refused hundocumented
    have haccepted : (parseCronField asciiDigits minuteRange "70/5").isOk = true := by decide +kernel
    rw [hrefused] at haccepted
    cases haccepted
  · intro h
    have hdocumented : Spells minuteRange [⟨.all, none⟩, ⟨.single five, none⟩] "*,5" := by
      refine ⟨by simp, fun i hi => ?_, rfl⟩
      rcases List.mem_pair.mp hi with rfl | rfl
      · exact ⟨nofun, nofun, minuteRange.le⟩
      · exact ⟨by decide, nofun, le_rfl⟩
    obtain ⟨vs, haccepted, -⟩ := h.accepted _ hdocumented
    have hrefused : (parseCronField asciiDigits minuteRange "*,5").isOk = false := by decide +kernel
    rw [haccepted] at hrefused
    cases hrefused

end Occp.Cron
