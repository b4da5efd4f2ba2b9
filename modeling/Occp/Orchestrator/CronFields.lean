import Occp.Lib.Fields
import Occp.Orchestrator.CronSearch
import Occp.Text

/-!
# The fields of a cron expression (`_parse_cron_field`, `CronExpression.from_string`)

A set of integers is a list of them, in which a value may come twice.
-/

namespace Occp.Cron

/-! ## Integers -/

/-- The decimal digits of Unicode, by their values. Those of ASCII are the usual ones. -/
structure DecimalDigits where
  value : Char → Option Nat
  ascii : ∀ c : Char, c.toNat < 128 → value c = if c.isDigit then some (c.toNat - 48) else none

/-- Where `int` cuts: `str.strip` cuts at four more control characters. -/
def isBlank (c : Char) : Bool := Text.isSpace c && !(28 ≤ c.toNat && c.toNat < 32)

def trim (cs : List Char) : List Char := ((cs.dropWhile isBlank).reverse.dropWhile isBlank).reverse

section

variable (u : DecimalDigits)

/-- Digits, with single underscores between them, as a number and their count. -/
def digits? : List Char → (value count : Nat) → (complete : Bool) → Option (Nat × Nat)
  | [], value, count, complete => if complete then some (value, count) else none
  | c :: cs, value, count, complete =>
    if c = '_' then if complete then digits? cs value count false else none
    else
      match u.value c with
      | some d => digits? cs (value * 10 + d) (count + 1) true
      | none => none

/-- `sys.get_int_max_str_digits()`. -/
def maxStrDigits : Nat := 4300

/-- `int(text)`; there is none when it raises `ValueError`. -/
def int? (text : List Char) : Option Int :=
  let (s, cs) := Text.sign (trim text)
  match digits? u cs 0 0 false with
  | some (n, count) => if count ≤ maxStrDigits then some (s * n) else none
  | none => none

end

/-- `range(start, stop, step)` for a positive step. -/
def range (start stop step : Int) : List Int :=
  (List.range ((stop - start + step - 1) / step).toNat).map fun (i : Nat) => start + i * step

theorem mem_range {start last step v : Int} (hstep : 0 < step) :
    v ∈ range start (last + 1) step ↔ start ≤ v ∧ v ≤ last ∧ step ∣ v - start := by
  have hcount : (last + 1 - start + step - 1) / step = (last - start) / step + 1 := by
    rw [show last + 1 - start + step - 1 = last - start + step by ring, Int.add_ediv_of_dvd_right (Int.dvd_refl step),
      Int.ediv_self hstep.ne']
  unfold range
  rw [hcount, List.mem_map]
  constructor
  · rintro ⟨i, hi, rfl⟩
    have hle : (i : Int) ≤ (last - start) / step := by
      have hlt := List.mem_range.mp hi
      omega
    have hmul := (Int.le_ediv_iff_mul_le hstep).mp hle
    have hpos : 0 ≤ (i : Int) * step := Int.mul_nonneg (Int.natCast_nonneg i) hstep.le
    exact ⟨by omega, by omega, ⟨i, by ring⟩⟩
  · rintro ⟨hstart, hlast, k, hk⟩
    have hk0 : 0 ≤ k := by
      by_contra hneg
      have := Int.mul_neg_of_pos_of_neg hstep (not_le.mp hneg)
      omega
    have hle : k ≤ (last - start) / step := (Int.le_ediv_iff_mul_le hstep).mpr (by rw [Int.mul_comm]; omega)
    refine ⟨k.toNat, List.mem_range.mpr (by omega), ?_⟩
    rw [Int.toNat_of_nonneg hk0, Int.mul_comm]
    omega

/-! ## Fields -/

structure FieldRange where
  min : Int
  max : Int
  le : min ≤ max

def FieldRange.Has (r : FieldRange) (v : Int) : Prop := r.min ≤ v ∧ v ≤ r.max

instance (r : FieldRange) (v : Int) : Decidable (r.Has v) := inferInstanceAs (Decidable (_ ∧ _))

structure FieldValues (r : FieldRange) where
  values : List Int
  has : ∀ v ∈ values, r.Has v

def parseError (expression reason : String) : PyError :=
  .other "CronParseError" s!"Cannot parse cron expression '{expression}': {reason}"

section

variable (u : DecimalDigits) (r : FieldRange) (field : String)

/-- What the loop adds for a part. -/
def parsePart (part : List Char) : Except PyError (List Int) :=
  match Lib.splitFirst '/' part with
  | some (base, stepStr) =>
    match int? u stepStr with
    | none =>
      let stepStr := String.ofList stepStr
      .error (parseError field s!"Invalid step value: {stepStr}")
    | some step =>
      if step ≤ 0 then .error (parseError field s!"Step must be positive, got: {step}")
      else if base = ['*'] then .ok (range r.min (r.max + 1) step)
      else
        match Lib.splitFirst '-' base with
        | some (a, b) =>
          match int? u a, int? u b with
          | some start, some stop => .ok (range start (stop + 1) step)
          | _, _ =>
            let base := String.ofList base
            .error (parseError field s!"Invalid range: {base}")
        | none =>
          match int? u base with
          | some start => .ok (range start (r.max + 1) step)
          | none =>
            let base := String.ofList base
            .error (parseError field s!"Invalid base: {base}")
  | none =>
    match Lib.splitFirst '-' part with
    | some (a, b) =>
      match int? u a, int? u b with
      | some lo, some hi =>
        if hi < lo then
          let part := String.ofList part
          .error (parseError field s!"Range start > end: {part}")
        else .ok (range lo (hi + 1) 1)
      | _, _ =>
        let part := String.ofList part
        .error (parseError field s!"Invalid range: {part}")
    | none =>
      match int? u part with
      | some val => .ok [val]
      | none =>
        let part := String.ofList part
        .error (parseError field s!"Invalid value: {part}")

variable {r} in
theorem has_range {v : Int} (h : v ∈ range r.min (r.max + 1) 1) : r.Has v := by
  obtain ⟨hmin, hmax, -⟩ := (mem_range one_pos).mp h
  exact ⟨hmin, hmax⟩

/-- `_parse_cron_field`. Of several values out of range, the error names the first in the list. -/
def parseCronField : Except PyError (FieldValues r) :=
  if field = "*" then .ok ⟨range r.min (r.max + 1) 1, fun _ => has_range⟩
  else do
    let parts ← (field.toList.splitOn ',').mapM fun part => parsePart u r field (Text.strip part)
    let result := parts.flatten
    match h : result.find? fun v => ¬ r.Has v with
    | some v => .error (parseError field s!"Value {v} out of range [{r.min}, {r.max}]")
    | none => .ok ⟨result, by simpa using h⟩

end

/-! ## Expressions -/

def minuteRange : FieldRange := ⟨0, 59, by decide⟩

def hourRange : FieldRange := ⟨0, 23, by decide⟩

def dayOfMonthRange : FieldRange := ⟨1, 31, by decide⟩

def monthRange : FieldRange := ⟨1, 12, by decide⟩

def dayOfWeekRange : FieldRange := ⟨0, 6, by decide⟩

def FieldValues.toNats {r : FieldRange} (f : FieldValues r) : List Nat := f.values.map Int.toNat

theorem FieldValues.has_of_mem_toNats {r : FieldRange} (hr : 0 ≤ r.min) {f : FieldValues r} {n : Nat} (h : n ∈ f.toNats) :
    r.Has n := by
  obtain ⟨v, hv, rfl⟩ := List.mem_map.mp h
  obtain ⟨hmin, hmax⟩ := f.has v hv
  constructor <;> omega

def ParsedExpression.ofFields (raw : String) (minute : FieldValues minuteRange) (hour : FieldValues hourRange)
    (dayOfMonth : FieldValues dayOfMonthRange) (month : FieldValues monthRange) (dayOfWeek : FieldValues dayOfWeekRange) :
    ParsedExpression where
  minute := minute.toNats
  hour := hour.toNats
  dayOfMonth := dayOfMonth.toNats
  month := month.toNats
  dayOfWeek := dayOfWeek.toNats
  raw
  minute_lt _ h := by
    obtain ⟨hmin, hmax⟩ := FieldValues.has_of_mem_toNats (by decide) h
    dsimp only [minuteRange] at hmin hmax
    omega
  hour_lt _ h := by
    obtain ⟨hmin, hmax⟩ := FieldValues.has_of_mem_toNats (by decide) h
    dsimp only [hourRange] at hmin hmax
    omega
  dayOfMonth_mem _ h := by
    obtain ⟨hmin, hmax⟩ := FieldValues.has_of_mem_toNats (by decide) h
    dsimp only [dayOfMonthRange] at hmin hmax
    omega
  month_mem _ h := by
    obtain ⟨hmin, hmax⟩ := FieldValues.has_of_mem_toNats (by decide) h
    dsimp only [monthRange] at hmin hmax
    omega
  dayOfWeek_lt _ h := by
    obtain ⟨hmin, hmax⟩ := FieldValues.has_of_mem_toNats (by decide) h
    dsimp only [dayOfWeekRange] at hmin hmax
    omega

def ParsedExpression.fromString (u : DecimalDigits) (expr : String) : Except PyError ParsedExpression :=
  match (Text.split (Text.strip expr.toList)).map String.ofList with
  | [minute, hour, dayOfMonth, month, dayOfWeek] => do
    let minute ← parseCronField u minuteRange minute
    let hour ← parseCronField u hourRange hour
    let dayOfMonth ← parseCronField u dayOfMonthRange dayOfMonth
    let month ← parseCronField u monthRange month
    let dayOfWeek ← parseCronField u dayOfWeekRange dayOfWeek
    return .ofFields expr minute hour dayOfMonth month dayOfWeek
  | parts => .error (parseError expr s!"Expected 5 fields, got {parts.length}")

end Occp.Cron
