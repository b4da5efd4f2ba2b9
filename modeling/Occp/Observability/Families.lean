import Occp.Observability.ExpositionLines

/-!
# Families of samples (`observability/metrics_collector.py`)

What a collector holds, as families of samples under exported names: the lines that are written for them,
and what should be read of these. A bucket's bound is a label of its own.
-/

namespace Occp.Metrics

open Lib

structure Sample where
  suffix : String
  key : Labels
  bound : Option String := none
  value : String
  token : IsToken value
  plainBound : ∀ b, bound = some b → CleanLabel ("le", b)

/-- The labels as they are written. -/
def Sample.labels (s : Sample) : Labels :=
  match s.bound with
  | none => s.key
  | some b => bucketLabels s.key b

/-- The labels that were recorded, and the bound. -/
def Sample.recorded (s : Sample) : Labels :=
  match s.bound with
  | none => s.key
  | some b => labelsKey (s.key ++ [("le", b)])

def Kind.suffixes : Kind → List String
  | histogram => ["_bucket", "_count", "_sum"]
  | _ => [""]

structure Family where
  name : String
  helpText : String
  kind : Kind
  samples : List Sample
  suffix_mem : ∀ s ∈ samples, s.suffix ∈ kind.suffixes

namespace Family

variable (f : Family)

def items : List Item :=
  .type f.name f.kind :: f.samples.map fun s => .sample f.name (f.name ++ s.suffix) s.recorded s.value

/-- The lines, each with what should be read of it. -/
def readings : List (Line × List RawItem) :=
  (if f.helpText = "" then [] else [(.help f.name f.helpText, [])]) ++
    (.type f.name f.kind, [.type f.name f.kind]) ::
    f.samples.map fun s =>
      (.sample (f.name ++ s.suffix) s.labels s.value, [.sample (f.name ++ s.suffix) s.recorded s.value])

/-- Names and labels are those of the format, and no value or help text gets in its way. -/
structure Readable : Prop where
  name : ValidName f.name
  help : QuietHelp f.helpText
  labels : ∀ s ∈ f.samples, ∀ l ∈ s.key, CleanLabel l
  /-- A bound would replace a label of its name. -/
  bound : ∀ s ∈ f.samples, s.bound.isSome → "le" ∉ s.key.map (·.1)

end Family

/-! ## Samples -/

theorem labelsLength_cons (l : String × String) (labels : Labels) :
    labelsLength (l :: labels) = (labelText l).length + 1 + labelsLength labels := by
  simp [labelsLength]

theorem labelsLength_perm {labels labels' : Labels} (h : labels.Perm labels') :
    labelsLength labels = labelsLength labels' :=
  (h.map _).sum_nat

theorem labelsKey_perm (labels : Dict String) : (labelsKey labels).Perm labels := List.mergeSort_perm labels itemLe

theorem set_of_fresh {key : Labels} {name bound : String} (h : name ∉ key.map (·.1)) :
    Dict.set key name bound = key ++ [(name, bound)] := by
  induction key with
  | nil => rfl
  | cons l key ih =>
    rw [List.map_cons, List.mem_cons, not_or] at h
    rw [Dict.set, if_neg (Ne.symm h.1), ih h.2]
    rfl

/-- A bound that replaces a label leaves less to write. -/
theorem labelsLength_set {key : Labels} {name bound : String} (h : name ∈ key.map (·.1)) :
    labelsLength (Dict.set key name bound) < labelsLength (key ++ [(name, bound)]) := by
  induction key with
  | nil => cases h
  | cons l key ih =>
    rw [Dict.set]
    split
    · next heq =>
      rw [← heq, labelsLength_perm (List.perm_append_singleton _ _), labelsLength_cons, labelsLength_cons, labelsLength_cons]
      omega
    · next hne =>
      rw [List.map_cons, List.mem_cons] at h
      have hlt := ih (h.resolve_left fun heq => hne heq.symm)
      rw [List.cons_append, labelsLength_cons, labelsLength_cons]
      exact Nat.add_lt_add_left hlt _

theorem validName_append {name suffix : String} {kind : Kind} (h : ValidName name) (hsuffix : suffix ∈ kind.suffixes) :
    ValidName (name ++ suffix) := by
  have hall : suffix.toList.all isNameChar = true := by
    have hkinds : ∀ text ∈ kind.suffixes, text.toList.all isNameChar = true := by cases kind <;> decide
    exact hkinds suffix hsuffix
  rw [ValidName, String.toList_append]
  rw [ValidName, isWord, Bool.and_eq_true] at h
  rw [isWord, List.all_append, h.2, hall, Bool.and_self, Bool.and_true]
  cases hname : name.toList with
  | nil => rw [hname] at h; cases h.1
  | cons c cs => rw [hname] at h; exact h.1

/-- A sample is read as what was recorded just when its labels are clean and none is named like its bound. -/
theorem Sample.readLines_iff (s : Sample) {name : String} (hname : ValidName name) :
    readLines (Line.sample name s.labels s.value).text = some [.sample name s.recorded s.value] ↔
      (∀ l ∈ s.key, CleanLabel l) ∧ (s.bound.isSome → "le" ∉ s.key.map (·.1)) := by
  have hread : s.labels = s.recorded → (readLines (Line.sample name s.labels s.value).text =
      some [.sample name s.recorded s.value] ↔ ∀ l ∈ s.labels, CleanLabel l) := by
    intro heq
    rw [← heq]
    exact ⟨clean_of_readLines_sample hname, readLines_sample hname s.token⟩
  cases hbound : s.bound with
  | none =>
    have hlabels : s.labels = s.key := by rw [Sample.labels, hbound]
    have hrecorded : s.recorded = s.key := by rw [Sample.recorded, hbound]
    rw [hread (by rw [hlabels, hrecorded]), hlabels]
    simp
  | some b =>
    have hlabels : s.labels = bucketLabels s.key b := by rw [Sample.labels, hbound]
    have hrecorded : s.recorded = labelsKey (s.key ++ [("le", b)]) := by rw [Sample.recorded, hbound]
    by_cases hle : "le" ∈ s.key.map (·.1)
    · refine ⟨fun h => ?_, fun h => absurd hle (h.2 rfl)⟩
      have hlonger := @labelsLength_set s.key "le" b hle
      have hshorter := labelsLength_of_readLines_sample hname s.token h
      rw [hlabels, hrecorded, bucketLabels, labelsLength_perm (labelsKey_perm _),
        labelsLength_perm (labelsKey_perm _)] at hshorter
      omega
    · have hfresh : bucketLabels s.key b = labelsKey (s.key ++ [("le", b)]) := by
        rw [bucketLabels, set_of_fresh hle]
      rw [hread (by rw [hlabels, hrecorded, hfresh]), hlabels, hfresh]
      have hplain := s.plainBound b hbound
      constructor
      · intro h
        refine ⟨fun l hl => h l ?_, fun _ => hle⟩
        exact (labelsKey_perm _).mem_iff.mpr (List.mem_append_left _ hl)
      · rintro ⟨h, -⟩ l hl
        rcases List.mem_append.mp ((labelsKey_perm _).mem_iff.mp hl) with hl | hl
        · exact h l hl
        · rw [List.mem_singleton.mp hl]
          exact hplain

/-! ## Families -/

namespace Family

variable {f : Family}

theorem raw_items (f : Family) : f.items.map Item.raw = f.readings.flatMap (·.2) := by
  have hhelp : (if f.helpText = "" then [] else [(Line.help f.name f.helpText, ([] : List RawItem))]).flatMap
      (·.2) = [] := by
    split <;> rfl
  rw [readings, List.flatMap_append, hhelp, items]
  simp only [Item.raw, List.map_cons, List.map_map, List.nil_append, List.flatMap_cons, List.flatMap_map,
    List.singleton_append, List.cons.injEq, true_and]
  exact List.map_eq_flatMap

theorem quietHelp_empty : QuietHelp "" := by
  simp [QuietHelp, Escapes.unescape]

/-- Every line is read as it should be just when the family is readable. -/
theorem readings_iff (hname : ValidName f.name) :
    (∀ r ∈ f.readings, readLines r.1.text = some r.2) ↔ f.Readable := by
  have hsample : ∀ s ∈ f.samples, _ := fun s hs => s.readLines_iff (validName_append hname (f.suffix_mem s hs))
  have hhelp : (∀ r ∈ (if f.helpText = "" then [] else [(Line.help f.name f.helpText, ([] : List RawItem))]),
      readLines r.1.text = some r.2) ↔ QuietHelp f.helpText := by
    split
    · next hempty => simp [hempty, quietHelp_empty]
    · simpa using readLines_help_iff hname f.helpText
  rw [readings, List.forall_mem_append, hhelp, List.forall_mem_cons, List.forall_mem_map]
  constructor
  · rintro ⟨hquiet, -, hsamples⟩
    exact ⟨hname, hquiet, fun s hs => ((hsample s hs).mp (hsamples s hs)).1,
      fun s hs => ((hsample s hs).mp (hsamples s hs)).2⟩
  · intro h
    exact ⟨h.help, readLines_type hname f.kind, fun s hs => (hsample s hs).mpr ⟨h.labels s hs, h.bound s hs⟩⟩

/-- No line is read as less than it should be. -/
theorem length_readings (hname : ValidName f.name) {r : Line × List RawItem} (hr : r ∈ f.readings)
    {items : List RawItem} (hread : readLines r.1.text = some items) : r.2.length ≤ items.length := by
  rw [readings, List.mem_append, List.mem_cons] at hr
  rcases hr with hr | rfl | hr
  · split at hr
    · cases hr
    · rw [List.mem_singleton.mp hr]
      exact Nat.zero_le _
  · rw [readLines_type hname] at hread
    cases hread
    exact Nat.le_refl _
  · obtain ⟨s, hs, rfl⟩ := List.mem_map.mp hr
    exact length_readLines_sample (validName_append hname (f.suffix_mem s hs)) s.token hread

end Family

/-- The lines of families, and the empty one at the end. -/
def familyLines (fs : List Family) : List Line := (fs.flatMap Family.readings).map (·.1) ++ [.last]

def linesText (lines : List Line) : List Char := ['\n'].intercalate (lines.map Line.text)

theorem readLines_linesText (lines : List Line) :
    readLines (linesText (lines ++ [.last])) = (lines.mapM fun l => readLines l.text).map List.flatten := by
  have hlast : readLines Line.last.text = some [] := by
    rw [Line.text_last, readLines_of_not_mem List.not_mem_nil]
    rfl
  have hne : (lines ++ [Line.last]).map Line.text ≠ [] := by simp
  have hall : (lines ++ [Line.last]).mapM (fun l => readLines l.text) =
      (lines.mapM fun l => readLines l.text).map (· ++ [[]]) := by
    rw [List.mapM_append, List.mapM_cons, hlast]
    cases lines.mapM fun l => readLines l.text <;> rfl
  have hgroups : readLines (linesText (lines ++ [.last])) =
      (((lines ++ [Line.last]).map Line.text).mapM readLines).map List.flatten := by
    rw [linesText, readLines, splitOn_intercalate_flatMap hne, mapM_flatMap_flatten]
    rfl
  rw [hgroups, List.mapM_map]
  have hunfold : (readLines ∘ Line.text) = fun l => readLines l.text := rfl
  rw [hunfold, hall]
  cases lines.mapM fun l => readLines l.text <;> simp

/-- Families are read back item by item just when each is readable. -/
theorem readLines_families_iff (fs : List Family) :
    readLines (linesText (familyLines fs)) = some ((fs.flatMap Family.items).map Item.raw) ↔ ∀ f ∈ fs, f.Readable := by
  have hraw : (fs.flatMap Family.items).map Item.raw = (fs.flatMap Family.readings).flatMap (·.2) := by
    rw [List.map_flatMap, List.flatMap_assoc]
    exact congrArg (fs.flatMap ·) (funext Family.raw_items)
  rw [familyLines, readLines_linesText, List.mapM_map]
  constructor
  · intro h
    obtain ⟨groups, hgroups, hflatten⟩ := Option.map_eq_some_iff.mp h
    have hsome := isSome_of_mapM_eq_some hgroups
    have hvalid : ∀ f ∈ fs, ValidName f.name := by
      intro f hf
      have hmem : RawItem.type f.name f.kind ∈ groups.flatten := by
        rw [hflatten]
        exact List.mem_map.mpr ⟨.type f.name f.kind, List.mem_flatMap.mpr ⟨f, hf, List.mem_cons_self⟩, rfl⟩
      obtain ⟨group, hgroup, hmem⟩ := List.mem_flatten.mp hmem
      obtain ⟨r, -, hread⟩ := exists_of_mapM_eq_some hgroups group hgroup
      have hname := validName_of_readLines hread _ hmem
      exact hname
    have hresult : groups = (fs.flatMap Family.readings).map fun r => (readLines r.1.text).getD [] := by
      refine Option.some.inj (hgroups.symm.trans (mapM_eq_some_map fun r hr => ?_))
      obtain ⟨items, hitems⟩ := hsome r hr
      simp only [Function.comp_apply] at hitems ⊢
      rw [hitems]
      rfl
    have hlength : ∀ r ∈ fs.flatMap Family.readings, r.2.length ≤ ((readLines r.1.text).getD []).length := by
      intro r hr
      obtain ⟨f, hf, hr'⟩ := List.mem_flatMap.mp hr
      obtain ⟨items, hitems⟩ := hsome r hr
      simp only [Function.comp_apply] at hitems
      rw [hitems]
      exact Family.length_readings (hvalid f hf) hr' hitems
    have hflat : (fs.flatMap Family.readings).flatMap (fun r => (readLines r.1.text).getD []) =
        (fs.flatMap Family.readings).flatMap (·.2) := by
      rw [← hraw, ← hflatten, hresult, List.flatMap_def]
    have hsame := eq_of_flatMap_eq hlength hflat
    intro f hf
    refine (Family.readings_iff (hvalid f hf)).mp fun r hr => ?_
    have hmem := List.mem_flatMap.mpr ⟨f, hf, hr⟩
    obtain ⟨items, hitems⟩ := hsome r hmem
    have hr := hsame r hmem
    simp only [Function.comp_apply] at hitems hr
    rw [hitems] at hr ⊢
    exact congrArg some hr
  · intro h
    have hread : ∀ r ∈ fs.flatMap Family.readings, ((fun l => readLines l.text) ∘ Prod.fst) r = some r.2 := by
      intro r hr
      obtain ⟨f, hf, hr⟩ := List.mem_flatMap.mp hr
      exact (Family.readings_iff (h f hf).name).mpr (h f hf) r hr
    rw [mapM_eq_some_map hread, hraw, Option.map_some]
    exact congrArg some List.flatMap_def.symm

end Occp.Metrics
