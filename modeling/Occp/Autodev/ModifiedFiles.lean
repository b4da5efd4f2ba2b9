import Occp.Autodev.Sandbox

/-!
# What the sandbox reads off a diff

`parseModifiedFiles` sees lines, and takes every line that looks like a header for one.
-/

namespace Occp.Autodev

/-- The paths that the sandbox takes from one line of git's output. -/
def linePaths (line : List Char) : List String := (splitlines [] line).filterMap headerPath?

theorem headerPath?_nil : headerPath? [] = none := by decide

theorem filterMap_splitlines_append (current line rest : List Char) :
    (splitlines current (line ++ '\n' :: rest)).filterMap headerPath? =
      (splitlines current line).filterMap headerPath? ++ linePaths rest := by
  induction current, line using splitlines.induct with
  | case1 => simp [splitlines, isLineBreak, headerPath?_nil, linePaths]
  | case2 current hcurrent =>
    have hbreak : isLineBreak '\n' = true := by decide
    cases current with
    | nil => exact absurd rfl hcurrent
    | cons c cs => simp [splitlines, hbreak, linePaths, List.filterMap_cons]; split <;> rfl
  | case3 current cs ih =>
    simp only [List.cons_append, splitlines, List.filterMap_cons, ih]
    split <;> rfl
  | case4 current c cs hrn hbreak ih =>
    -- A carriage return at the end of the line and the newline after it are one break.
    by_cases hr : c = '\r' ∧ cs = []
    · obtain ⟨rfl, rfl⟩ := hr
      simp [splitlines, hbreak, linePaths, List.filterMap_cons]
      split <;> rfl
    · have hrn' : ∀ tail, c = '\r' → cs ++ '\n' :: rest = '\n' :: tail → False := by
        intro tail hc htail
        cases cs with
        | nil => exact hr ⟨hc, rfl⟩
        | cons d ds =>
          obtain ⟨rfl, -⟩ := List.cons.inj htail
          exact hrn ds hc rfl
      rw [List.cons_append, splitlines.eq_4 _ _ _ hrn', splitlines.eq_4 _ _ _ hrn, if_pos hbreak, if_pos hbreak,
        List.filterMap_cons, List.filterMap_cons, ih]
      split <;> rfl
  | case5 current c cs hrn hbreak ih =>
    have hrn' : ∀ tail, c = '\r' → cs ++ '\n' :: rest = '\n' :: tail → False := by
      rintro tail rfl -
      exact hbreak (by decide)
    rw [List.cons_append, splitlines.eq_4 _ _ _ hrn', splitlines.eq_4 _ _ _ hrn, if_neg hbreak, if_neg hbreak, ih]

theorem linePaths_append (line rest : List Char) :
    linePaths (line ++ '\n' :: rest) = linePaths line ++ linePaths rest :=
  filterMap_splitlines_append [] line rest

theorem linePaths_lines (lines : List (List Char)) :
    linePaths (lines.flatMap (· ++ ['\n'])) = lines.flatMap linePaths := by
  induction lines with
  | nil => rfl
  | cons line lines ih =>
    rw [List.flatMap_cons, List.flatMap_cons, List.append_assoc, List.singleton_append, linePaths_append, ih]

/-- A path is listed when some line spells it. -/
theorem mem_parse_lines (lines : List (List Char)) (path : String) :
    path ∈ parseModifiedFiles (String.ofList (lines.flatMap (· ++ ['\n']))) ↔
      path ≠ "/dev/null" ∧ ∃ line ∈ lines, path ∈ linePaths line := by
  have hlines : (splitlines [] (lines.flatMap (· ++ ['\n']))).filterMap headerPath? = lines.flatMap linePaths :=
    linePaths_lines lines
  simp only [parseModifiedFiles, String.toList_ofList, List.mem_insertionSort, List.mem_dedup, List.mem_filter,
    hlines, List.mem_flatMap, bne_iff_ne]
  exact and_comm

theorem mem_parseModifiedFiles (files : List FileDiff) (path : String) :
    path ∈ parseModifiedFiles (diffText files) ↔
      path ≠ "/dev/null" ∧ ∃ d ∈ files, ∃ line ∈ d.lines, path ∈ linePaths line := by
  rw [diffText, mem_parse_lines]
  refine and_congr_right fun _ => ?_
  simp only [List.mem_flatMap]
  constructor
  · rintro ⟨line, ⟨d, hd, hline⟩, hpath⟩
    exact ⟨d, hd, line, hline, hpath⟩
  · rintro ⟨d, hd, line, hline, hpath⟩
    exact ⟨line, ⟨d, hd, hline⟩, hpath⟩

/-! ## Header lines -/

theorem isLineBreak_code (c : Char) (h : isLineBreak c = true) : c.toNat < 0x20 ∧ c ≠ '\t' ∨ 0x7F ≤ c.toNat := by
  simp only [isLineBreak, List.contains_eq_mem, List.mem_cons, List.not_mem_nil, or_false, decide_eq_true_eq] at h
  rcases h with rfl | rfl | rfl | rfl | rfl | rfl | rfl | rfl | rfl | rfl <;> decide

theorem splitlines_unbroken (current line : List Char) (h : ∀ c ∈ line, isLineBreak c = false) :
    splitlines current line = if current.reverse ++ line = [] then [] else [current.reverse ++ line] := by
  induction line generalizing current with
  | nil => cases current <;> simp [splitlines]
  | cons c cs ih =>
    have hc := h c List.mem_cons_self
    have hrn : ∀ tail, c = '\r' → cs = '\n' :: tail → False := by
      rintro tail rfl -
      exact absurd hc (by decide)
    rw [splitlines.eq_4 _ _ _ hrn, if_neg (by simp [hc]), ih _ fun d hd => h d (List.mem_cons_of_mem _ hd)]
    simp

theorem linePaths_unbroken (line : List Char) (h : ∀ c ∈ line, isLineBreak c = false) :
    linePaths line = (headerPath? line).toList := by
  rw [linePaths, splitlines_unbroken [] line h]
  cases line with
  | nil => rfl
  | cons c cs => simp [List.filterMap_cons]; split <;> simp [*]

/-- What the sandbox reads in a header line of this file, if the line names it at all. -/
def shownAs (path : String) : Option String :=
  if quoted path then none
  else some (String.ofList (path.toList ++ if path.toList.contains ' ' then ['\t'] else []))

theorem shownAs_self_iff (path : String) : shownAs path = some path ↔ quoted path = false ∧ ' ' ∉ path.toList := by
  unfold shownAs
  cases hq : quoted path with
  | true => simp
  | false =>
    by_cases hs : ' ' ∈ path.toList <;> simp [hs]

theorem quoteByte_unbroken (b : Nat) (h : b < 256) : ∀ c ∈ quoteByte b, isLineBreak c = false := by
  have hall : (List.range 256).all (fun b => (quoteByte b).all fun c => isLineBreak c == false) = true := by
    decide +kernel
  rw [List.all_eq_true] at hall
  have hb := hall b (List.mem_range.mpr h)
  simpa using hb

theorem unquoted_unbroken (path : String) (h : quoted path = false) : ∀ c ∈ path.toList, isLineBreak c = false := by
  intro c hc
  by_contra hbreak
  have hcode := isLineBreak_code c (by simpa using hbreak)
  simp only [quoted, List.any_eq_false] at h
  have := h c hc
  simp at this
  omega

theorem headerName_unbroken (side path : String) (hside : ∀ c ∈ side.toList, isLineBreak c = false) :
    ∀ c ∈ headerName side path, isLineBreak c = false := by
  intro c hc
  unfold headerName at hc
  split at hc
  · simp only [List.mem_cons, List.mem_append, List.mem_flatMap, List.not_mem_nil, or_false] at hc
    rcases hc with (rfl | ⟨b, -, hb⟩) | rfl
    · decide
    · exact quoteByte_unbroken b.toNat (UInt8.toNat_lt b) c hb
    · decide
  · next hq =>
    simp only [List.mem_append] at hc
    rcases hc with (hc | hc) | hc
    · exact hside c hc
    · exact unquoted_unbroken path (by simpa using hq) c hc
    · have htab : c = '\t' := by
        by_cases hspace : path.toList.contains ' '
        · rw [if_pos hspace] at hc
          exact List.mem_singleton.mp hc
        · rw [if_neg hspace] at hc
          cases hc
      rw [htab]
      decide

theorem headerPath?_old (name : List Char) : headerPath? ("--- a/".toList ++ name) = some (String.ofList name) := by
  have hnew : ("--- a/".toList ++ name).dropPrefix? "+++ b/".toList = none := rfl
  have hold : ("--- a/".toList ++ name).dropPrefix? "--- a/".toList = some name := by
    rw [List.dropPrefix?_eq_some_iff]
    exact ⟨_, rfl, beq_self_eq_true _⟩
  rw [headerPath?, hnew, hold]
  rfl

theorem headerPath?_new (name : List Char) : headerPath? ("+++ b/".toList ++ name) = some (String.ofList name) := by
  have hnew : ("+++ b/".toList ++ name).dropPrefix? "+++ b/".toList = some name := by
    rw [List.dropPrefix?_eq_some_iff]
    exact ⟨_, rfl, beq_self_eq_true _⟩
  rw [headerPath?, hnew]

theorem linePaths_name (mark side path : String) (hmark : (mark.toList ++ side.toList).all (fun c => !isLineBreak c) = true)
    (hquote : ∀ rest, headerPath? (mark.toList ++ '"' :: rest) = none)
    (hname : ∀ name, headerPath? (mark.toList ++ side.toList ++ name) = some (String.ofList name)) :
    linePaths (mark.toList ++ headerName side path) = (shownAs path).toList := by
  simp only [List.all_eq_true, Bool.not_eq_true'] at hmark
  have hside : ∀ c ∈ side.toList, isLineBreak c = false := fun c hc => hmark c (List.mem_append_right _ hc)
  rw [linePaths_unbroken]
  · unfold headerName shownAs
    split
    · rw [List.cons_append, hquote]
    · rw [List.append_assoc side.toList, ← List.append_assoc mark.toList, hname]
  · intro c hc
    rcases List.mem_append.mp hc with hc | hc
    · exact hmark c (List.mem_append_left _ hc)
    · exact headerName_unbroken side path hside c hc

theorem linePaths_oldLine (d : FileDiff) :
    linePaths d.oldLine = match d.side with
      | .created => []
      | _ => (shownAs d.path).toList := by
  have hname := linePaths_name "--- " "a/" d.path (by decide +kernel) (fun _ => rfl) headerPath?_old
  unfold FileDiff.oldLine
  cases d.side with
  | created => exact (by decide +kernel : linePaths ("--- ".toList ++ "/dev/null".toList) = [])
  | modified | deleted => exact hname

theorem linePaths_newLine (d : FileDiff) :
    linePaths d.newLine = match d.side with
      | .deleted => []
      | _ => (shownAs d.path).toList := by
  have hname := linePaths_name "+++ " "b/" d.path (by decide +kernel) (fun _ => rfl) headerPath?_new
  unfold FileDiff.newLine
  cases d.side with
  | deleted => exact (by decide +kernel : linePaths ("+++ ".toList ++ "/dev/null".toList) = [])
  | modified | created => exact hname

/-- The header lines of a file spell its name, on at least one of its sides. -/
theorem mem_header_iff (d : FileDiff) (path : String) :
    (path ∈ linePaths d.oldLine ∨ path ∈ linePaths d.newLine) ↔ shownAs d.path = some path := by
  rw [linePaths_oldLine, linePaths_newLine]
  cases d.side <;> simp

end Occp.Autodev
