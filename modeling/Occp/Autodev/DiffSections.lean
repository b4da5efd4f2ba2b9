import Occp.Autodev.ModifiedFiles

/-!
# Diffs of any change (`_parse_modified_files` in `autodev/sandbox_worktree.py`)

The output of git section by section, with renames, and with hunks that hold any text. What the
sandbox reads off it is compared with the paths of its sections.
-/

namespace Occp.Autodev

/-! ## Well-formed diffs -/

/-- The line of a file: any text without a newline. -/
abbrev LineText := { text : List Char // '\n' ∉ text }

inductive HunkLine where
  | context (text : LineText)
  | removed (text : LineText)
  | added (text : LineText)
  | noNewline

namespace HunkLine

def text : HunkLine → List Char
  | context text => ' ' :: text
  | removed text => '-' :: text
  | added text => '+' :: text
  | noNewline => '\\' :: " No newline at end of file".toList

def isOld : HunkLine → Bool
  | context _ | removed _ => true
  | _ => false

def isNew : HunkLine → Bool
  | context _ | added _ => true
  | _ => false

end HunkLine

structure Hunk where
  oldStart : Nat
  newStart : Nat
  /-- Git puts a line of the file here, such as the head of a function. -/
  heading : LineText
  body : List HunkLine

namespace Hunk

/-- A length of one is left out. -/
def range (start length : Nat) : List Char :=
  (toString start).toList ++ if length = 1 then [] else ',' :: (toString length).toList

def head (h : Hunk) : List Char :=
  "@@ -".toList ++ range h.oldStart (h.body.countP HunkLine.isOld) ++ " +".toList ++
    range h.newStart (h.body.countP HunkLine.isNew) ++ " @@".toList ++ h.heading

def lines (h : Hunk) : List (List Char) := h.head :: h.body.map HunkLine.text

end Hunk

/-- Without a line break of any kind. -/
def Unbroken (text : List Char) : Prop := ∀ c ∈ text, isLineBreak c = false

instance (text : List Char) : Decidable (Unbroken text) := List.decidableBAll _ text

def extendedKeywords : List String :=
  ["diff --git ", "old mode ", "new mode ", "deleted file mode ", "new file mode ", "copy from ", "copy to ",
    "rename from ", "rename to ", "similarity index ", "dissimilarity index ", "index ", "Binary files "]

/-- A line above the hunks. Git quotes a name that would break it. -/
structure ExtendedLine where
  keyword : String
  rest : List Char
  known : keyword ∈ extendedKeywords
  unbroken : Unbroken rest

def ExtendedLine.text (l : ExtendedLine) : List Char := l.keyword.toList ++ l.rest

inductive Change where
  | modified (path : String)
  | added (path : String)
  | deleted (path : String)
  | renamed (old new : String)

namespace Change

def old? : Change → Option String
  | modified path | deleted path | renamed path _ => some path
  | added _ => none

def new? : Change → Option String
  | modified path | added path | renamed _ path => some path
  | deleted _ => none

/-- The paths that the change touches. -/
def paths (c : Change) : List String := c.old?.toList ++ c.new?.toList

end Change

structure Section where
  change : Change
  extended : List ExtendedLine
  /-- Empty for a mere rename or change of mode, and for binary and empty files. -/
  hunks : List Hunk

namespace Section

def headerLine (mark side : String) (path? : Option String) : List Char :=
  mark.toList ++
    match path? with
    | none => "/dev/null".toList
    | some path => headerName side path

def lines (s : Section) : List (List Char) :=
  s.extended.map ExtendedLine.text ++
    if s.hunks = [] then []
    else headerLine "--- " "a/" s.change.old? :: headerLine "+++ " "b/" s.change.new? :: s.hunks.flatMap Hunk.lines

end Section

def sectionsText (sections : List Section) : String :=
  String.ofList ((sections.flatMap Section.lines).flatMap (· ++ ['\n']))

/-- The paths of the sections, in the form of a result. -/
def touchedPaths (sections : List Section) : List String :=
  ((sections.flatMap (·.change.paths)).dedup).insertionSort (· ≤ ·)

/-! ## What is read where -/

theorem headerPath?_eq_none {c : Char} (hplus : c ≠ '+') (hminus : c ≠ '-') (cs : List Char) :
    headerPath? (c :: cs) = none := by
  have hnew : (c :: cs).dropPrefix? "+++ b/".toList = none := by simp [List.dropPrefix?, hplus]
  have hold : (c :: cs).dropPrefix? "--- a/".toList = none := by simp [List.dropPrefix?, hminus]
  rw [headerPath?, hnew, hold]
  rfl

theorem linePaths_extended (l : ExtendedLine) : linePaths l.text = [] := by
  have hall : ∀ k ∈ extendedKeywords, k.toList.head? ≠ some '+' ∧ k.toList.head? ≠ some '-' ∧ k.toList ≠ [] ∧
      Unbroken k.toList := by decide +kernel
  obtain ⟨hplus, hminus, hne, hunbroken⟩ := hall l.keyword l.known
  have htext : Unbroken l.text := by
    intro c hc
    rcases List.mem_append.mp hc with hc | hc
    · exact hunbroken c hc
    · exact l.unbroken c hc
  rw [linePaths_unbroken _ htext, ExtendedLine.text]
  cases hk : l.keyword.toList with
  | nil => exact absurd hk hne
  | cons c cs =>
    rw [hk, List.head?_cons, ne_eq, Option.some.injEq] at hplus hminus
    rw [List.cons_append, headerPath?_eq_none hplus hminus]
    rfl

theorem linePaths_old (path? : Option String) :
    linePaths (Section.headerLine "--- " "a/" path?) = (path?.bind shownAs).toList := by
  cases path? with
  | none => exact (by decide +kernel : linePaths ("--- ".toList ++ "/dev/null".toList) = [])
  | some path => exact linePaths_name "--- " "a/" path (by decide +kernel) (fun _ => rfl) headerPath?_old

theorem linePaths_new (path? : Option String) :
    linePaths (Section.headerLine "+++ " "b/" path?) = (path?.bind shownAs).toList := by
  cases path? with
  | none => exact (by decide +kernel : linePaths ("+++ ".toList ++ "/dev/null".toList) = [])
  | some path => exact linePaths_name "+++ " "b/" path (by decide +kernel) (fun _ => rfl) headerPath?_new

namespace Section

/-- A header line of the section gives the path away. -/
def Names (s : Section) (path : String) : Prop := s.hunks ≠ [] ∧ ∃ p ∈ s.change.paths, shownAs p = some path

/-- A line of a hunk reads like a header line for the path. -/
def Mimics (s : Section) (path : String) : Prop := ∃ h ∈ s.hunks, ∃ line ∈ h.lines, path ∈ linePaths line

theorem mem_lines_iff (s : Section) (path : String) :
    (∃ line ∈ s.lines, path ∈ linePaths line) ↔ s.Names path ∨ s.Mimics path := by
  have hextended : ¬ ∃ line ∈ s.extended.map ExtendedLine.text, path ∈ linePaths line := by
    rintro ⟨_, hline, hpath⟩
    obtain ⟨l, -, rfl⟩ := List.mem_map.mp hline
    simp [linePaths_extended] at hpath
  have hnames : (path ∈ (s.change.old?.bind shownAs).toList ∨ path ∈ (s.change.new?.bind shownAs).toList) ↔
      ∃ p ∈ s.change.paths, shownAs p = some path := by
    cases hc : s.change <;> simp [Change.paths, Change.old?, Change.new?]
  unfold lines Names Mimics
  by_cases hhunks : s.hunks = []
  · simpa [hhunks] using hextended
  · simp only [hhunks, if_false, List.mem_append, List.mem_cons, or_and_right, exists_or, hextended, false_or,
      exists_eq_left, linePaths_old, linePaths_new, List.mem_flatMap, ne_eq, not_false_eq_true, true_and, ← hnames,
      or_assoc]
    refine or_congr_right (or_congr_right ?_)
    constructor
    · rintro ⟨line, ⟨h, hh, hline⟩, hpath⟩
      exact ⟨h, hh, line, hline, hpath⟩
    · rintro ⟨h, hh, line, hline, hpath⟩
      exact ⟨line, ⟨h, hh, hline⟩, hpath⟩

end Section

theorem mem_parse_sections (sections : List Section) (path : String) :
    path ∈ parseModifiedFiles (sectionsText sections) ↔
      path ≠ "/dev/null" ∧ ∃ s ∈ sections, s.Names path ∨ s.Mimics path := by
  rw [sectionsText, mem_parse_lines]
  refine and_congr_right fun _ => ?_
  simp only [← Section.mem_lines_iff, List.mem_flatMap]
  constructor
  · rintro ⟨line, ⟨s, hs, hline⟩, hpath⟩
    exact ⟨s, hs, line, hline, hpath⟩
  · rintro ⟨s, hs, line, hline, hpath⟩
    exact ⟨line, ⟨s, hs, hline⟩, hpath⟩

theorem headerPath?_eq_some_iff (line : List Char) (path : String) :
    headerPath? line = some path ↔
      line = '+' :: ("++ b/".toList ++ path.toList) ∨ line = '-' :: ("-- a/".toList ++ path.toList) := by
  have hdrop (w rest : List Char) (h : line.dropPrefix? w = some rest) : line = w ++ rest := by
    obtain ⟨w', rfl, hw⟩ := List.dropPrefix?_eq_some_iff.mp h
    rw [eq_of_beq hw]
  constructor
  · intro h
    unfold headerPath? at h
    split at h
    · next rest hrest =>
      rw [← Option.some.inj h, String.toList_ofList (l := rest)]
      exact .inl (hdrop _ _ hrest)
    · obtain ⟨rest, hrest, rfl⟩ := Option.map_eq_some_iff.mp h
      rw [String.toList_ofList (l := rest)]
      exact .inr (hdrop _ _ hrest)
  · rintro (rfl | rfl)
    · exact (headerPath?_new path.toList).trans (by rw [String.ofList_toList])
    · exact (headerPath?_old path.toList).trans (by rw [String.ofList_toList])

/-- In a hunk without other line breaks, an added line `++ b/…` and a removed line `-- a/…` are
read as headers, and nothing else is. -/
theorem mem_linePaths_hunkLine {l : HunkLine} (h : Unbroken l.text) (path : String) :
    path ∈ linePaths l.text ↔
      (∃ t, l = .added t ∧ t.val = "++ b/".toList ++ path.toList) ∨
        ∃ t, l = .removed t ∧ t.val = "-- a/".toList ++ path.toList := by
  rw [linePaths_unbroken _ h, Option.mem_toList, headerPath?_eq_some_iff]
  generalize "++ b/".toList ++ path.toList = added
  generalize "-- a/".toList ++ path.toList = removed
  cases l <;> simp [HunkLine.text]

/-! ## When the reading is exact -/

theorem sort_dedup_eq_iff (xs ys : List String) :
    xs.dedup.insertionSort (· ≤ ·) = ys.dedup.insertionSort (· ≤ ·) ↔ ∀ p, p ∈ xs ↔ p ∈ ys := by
  constructor
  · intro heq p
    have hmem : p ∈ xs.dedup.insertionSort (· ≤ ·) ↔ p ∈ ys.dedup.insertionSort (· ≤ ·) := by rw [heq]
    simpa only [List.mem_insertionSort, List.mem_dedup] using hmem
  · intro h
    have hperm : xs.dedup.Perm ys.dedup := (List.perm_ext_iff_of_nodup (List.nodup_dedup _) (List.nodup_dedup _)).mpr
      fun p => by simpa only [List.mem_dedup] using h p
    exact List.Perm.eq_of_pairwise' (List.pairwise_insertionSort _ _) (List.pairwise_insertionSort _ _)
      ((List.perm_insertionSort _ _).trans (hperm.trans (List.perm_insertionSort _ _).symm))

/-- What a diff must keep to: every path is in sight, and nothing else reads like one. -/
structure Legible (sections : List Section) : Prop where
  inSight : ∀ s ∈ sections, ∀ path ∈ s.change.paths,
    path ≠ "/dev/null" ∧ ∃ s' ∈ sections, s'.Names path ∨ s'.Mimics path
  noOther : ∀ s ∈ sections, ∀ path, path ≠ "/dev/null" → s.Names path ∨ s.Mimics path →
    ∃ s' ∈ sections, path ∈ s'.change.paths

/-- The sandbox reads just the paths of the sections off a diff that is legible. -/
theorem parse_sections_iff (sections : List Section) :
    parseModifiedFiles (sectionsText sections) = touchedPaths sections ↔ Legible sections := by
  have hread (path : String) := mem_parse_sections sections path
  simp only [parseModifiedFiles, List.mem_insertionSort, List.mem_dedup] at hread
  rw [parseModifiedFiles, touchedPaths, sort_dedup_eq_iff]
  simp only [hread, List.mem_flatMap]
  constructor
  · intro h
    refine ⟨fun s hs path hpath => (h path).mpr ⟨s, hs, hpath⟩, fun s hs path hnull hpath => ?_⟩
    exact (h path).mp ⟨hnull, s, hs, hpath⟩
  · intro h path
    constructor
    · rintro ⟨hnull, s, hs, hpath⟩
      exact h.noOther s hs path hnull hpath
    · rintro ⟨s, hs, hpath⟩
      exact h.inSight s hs path hpath

theorem unbroken_toString (n : Nat) : Unbroken (toString n).toList := by
  intro c hc
  have hdigit : c.isDigit = true := by
    rw [Nat.toString_eq_ofList_toDigits, String.toList_ofList] at hc
    exact Nat.isDigit_of_mem_toDigits (by decide) (by decide) hc
  by_contra hbreak
  have hcode := isLineBreak_code c (by simpa using hbreak)
  simp only [Char.isDigit, Bool.and_eq_true, decide_eq_true_eq, UInt32.le_iff_toNat_le] at hdigit
  have hlow : 48 ≤ c.toNat := hdigit.1
  have hhigh : c.toNat ≤ 57 := hdigit.2
  omega

theorem linePaths_head (h : Hunk) (hheading : Unbroken h.heading.val) : linePaths h.head = [] := by
  have hrange (start length : Nat) : Unbroken (Hunk.range start length) := by
    simp only [Unbroken, Hunk.range, List.forall_mem_append]
    refine ⟨unbroken_toString start, ?_⟩
    split
    · simp
    · exact List.forall_mem_cons.mpr ⟨by decide, unbroken_toString length⟩
  have hhead : Unbroken h.head := by
    intro c hc
    rcases List.mem_append.mp hc with hc | hc
    · have hmarks : Unbroken ("@@ -".toList ++ " +".toList ++ " @@".toList) := by decide +kernel
      rw [List.mem_append, List.mem_append, List.mem_append, List.mem_append] at hc
      rcases hc with (((hc | hc) | hc) | hc) | hc
      · exact hmarks c (List.mem_append_left _ (List.mem_append_left _ hc))
      · exact hrange _ _ c hc
      · exact hmarks c (List.mem_append_left _ (List.mem_append_right _ hc))
      · exact hrange _ _ c hc
      · exact hmarks c (List.mem_append_right _ hc)
    · exact hheading c hc
  rw [linePaths_unbroken _ hhead]
  have hat : h.head = '@' :: h.head.tail := rfl
  rw [hat, headerPath?_eq_none (by decide) (by decide)]
  rfl

/-- No line break within the line, and no removed `-- a/…` or added `++ b/…`. -/
def HunkLine.Plain (l : HunkLine) : Prop :=
  Unbroken l.text ∧
    ∀ t, (l = .added t → ¬ "++ b/".toList <+: t.val) ∧ (l = .removed t → ¬ "-- a/".toList <+: t.val)

theorem HunkLine.Plain.linePaths {l : HunkLine} (h : l.Plain) : linePaths l.text = [] := by
  refine List.eq_nil_iff_forall_not_mem.mpr fun path hpath => ?_
  rcases (mem_linePaths_hunkLine h.1 path).mp hpath with ⟨t, hl, ht⟩ | ⟨t, hl, ht⟩
  · exact (h.2 t).1 hl ⟨_, ht.symm⟩
  · exact (h.2 t).2 hl ⟨_, ht.symm⟩

/-- Where every section has hunks, git writes every name as it is, and no line of a hunk looks
like a header, the diff is legible. -/
theorem legible_of_plain {sections : List Section} (hhunks : ∀ s ∈ sections, s.hunks ≠ [])
    (hpaths : ∀ s ∈ sections, ∀ path ∈ s.change.paths,
      path ≠ "/dev/null" ∧ quoted path = false ∧ ' ' ∉ path.toList)
    (hheadings : ∀ s ∈ sections, ∀ h ∈ s.hunks, Unbroken h.heading.val)
    (hlines : ∀ s ∈ sections, ∀ h ∈ s.hunks, ∀ l ∈ h.body, l.Plain) : Legible sections := by
  refine ⟨fun s hs path hpath => ?_, fun s hs path _ hreads => ⟨s, hs, ?_⟩⟩
  · obtain ⟨hnull, hshown⟩ := hpaths s hs path hpath
    exact ⟨hnull, s, hs, .inl ⟨hhunks s hs, path, hpath, (shownAs_self_iff path).mpr hshown⟩⟩
  · rcases hreads with ⟨-, p, hp, hshown⟩ | ⟨h, hh, line, hline, hmem⟩
    · rw [(shownAs_self_iff p).mpr (hpaths s hs p hp).2] at hshown
      rwa [← Option.some.inj hshown]
    · rcases List.mem_cons.mp hline with rfl | hline
      · simp [linePaths_head h (hheadings s hs h hh)] at hmem
      · obtain ⟨l, hl, rfl⟩ := List.mem_map.mp hline
        simp [(hlines s hs h hh l hl).linePaths] at hmem

/-- A path that git does not show in a header is left out, and a removed comment is taken for one. -/
theorem rename_omitted_and_comment_listed :
    let rename : Section :=
      { change := .renamed "a.py" "b.py",
        extended := [⟨"diff --git ", "a/a.py b/b.py".toList, by decide, by decide⟩,
          ⟨"similarity index ", "100%".toList, by decide, by decide⟩,
          ⟨"rename from ", "a.py".toList, by decide, by decide⟩, ⟨"rename to ", "b.py".toList, by decide, by decide⟩],
        hunks := [] }
    let comment : Section :=
      { change := .modified "q.sql",
        extended := [⟨"diff --git ", "a/q.sql b/q.sql".toList, by decide, by decide⟩,
          ⟨"index ", "4c5f4e2..ce01362 100644".toList, by decide, by decide⟩],
        hunks := [⟨1, 1, ⟨[], by decide⟩,
          [.removed ⟨"-- a/old.txt".toList, by decide⟩, .context ⟨"SELECT 1;".toList, by decide⟩]⟩] }
    touchedPaths [rename, comment] = ["a.py", "b.py", "q.sql"] ∧
      parseModifiedFiles (sectionsText [rename, comment]) = ["old.txt", "q.sql"] := by
  refine ⟨by decide +kernel, ?_⟩
  rw [sectionsText, parseModifiedFiles, String.toList_ofList]
  decide +kernel

end Occp.Autodev
