import Occp.Lib.Regex
import Occp.Observability.Exposition

/-!
# What each line is read as (`observability/metrics_collector.py`)

The collector's lines, one by one: a label value is read back if nothing in it is special, and a help
text may go on over several lines.
-/

namespace Occp.Metrics

open Lib

/-! ## Words -/

section Words

variable {first next : Char → Bool} {cs w rest : List Char} {c : Char}

theorem isWord_all (h : isWord first next w = true) : ∀ c ∈ w, next c = true := by
  rw [isWord, Bool.and_eq_true] at h
  exact List.all_eq_true.mp h.2

theorem isWord_ne_nil (h : isWord first next w = true) : w ≠ [] := by
  rintro rfl
  cases h

theorem readWord_append (hw : isWord first next w = true) (hc : next c = false) (rest : List Char) :
    readWord first next (w ++ c :: rest) = some (w, c :: rest) := by
  have hall := isWord_all hw
  have htake : (w ++ c :: rest).takeWhile next = w := by
    rw [List.takeWhile_append_of_pos hall, List.takeWhile_cons_of_neg (by simp [hc]), List.append_nil]
  have hdrop : (w ++ c :: rest).dropWhile next = c :: rest := by
    rw [List.dropWhile_append_of_pos hall, List.dropWhile_cons_of_neg (by simp [hc])]
  rw [readWord, htake, hdrop, if_pos hw]

theorem readWord_eq_some (h : readWord first next cs = some (w, rest)) : cs = w ++ rest ∧ isWord first next w = true := by
  unfold readWord at h
  split at h
  · next hword =>
    cases h
    exact ⟨List.takeWhile_append_dropWhile.symm, hword⟩
  · cases h

theorem readWord_next (h : readWord first next cs = some (w, c :: rest)) : next c = false := by
  unfold readWord at h
  split at h
  · have hdrop : cs.dropWhile next = c :: rest := congrArg Prod.snd (Option.some.inj h)
    have hhead := List.head?_dropWhile_not next cs
    rw [hdrop] at hhead
    simpa using hhead
  · cases h

theorem readWord_more (h : readWord first next cs = some (w, c :: rest)) (more : List Char) :
    readWord first next (cs ++ more) = some (w, c :: (rest ++ more)) := by
  obtain ⟨hcs, hword⟩ := readWord_eq_some h
  rw [hcs, List.append_assoc, List.cons_append]
  exact readWord_append hword (readWord_next h) (rest ++ more)

end Words

/-! ## Labels -/

/-- Nothing in the value is special within a line. -/
def PlainLabel (l : String × String) : Prop := ValidLabel l.1 ∧ ∀ c ∈ l.2.toList, c ≠ '\\' ∧ c ≠ '"'

section Labels

variable {l : String × String} {labels : Labels} {cs rest more : List Char} {fuel : Nat}

theorem readLabel_text (h : PlainLabel l) (rest : List Char) : readLabel (labelText l ++ rest) = some (l, rest) := by
  obtain ⟨hname, hvalue⟩ := h
  have hword := readWord_append hname (by decide : isLabelChar '=' = false) ('"' :: (l.2.toList ++ '"' :: rest))
  simp only [readLabel, labelText, List.cons_append, List.append_assoc, List.nil_append, hword, Option.bind_some,
    Escapes.read_plain (by decide : '"' ≠ '\\') hvalue, Option.map_some, String.ofList_toList]

/-- What is read of a label that was written as it is, if it is what was meant. -/
theorem plain_of_readLabel (h : readLabel (labelText l ++ cs) = some (l, rest)) : PlainLabel l := by
  obtain ⟨⟨w, after⟩, hword, hvalue⟩ := Option.bind_eq_some_iff.mp h
  simp only at hvalue
  split at hvalue
  · next tail =>
    obtain ⟨⟨v, last⟩, hread, heq⟩ := Option.map_eq_some_iff.mp hvalue
    obtain ⟨hcs, hisWord⟩ := readWord_eq_some hword
    have hl := congrArg Prod.fst heq
    simp only at hl
    have hname : w = l.1.toList := by rw [← hl, String.toList_ofList]
    have hval : v = l.2.toList := by rw [← hl, String.toList_ofList]
    rw [hname] at hcs hisWord
    have htail : tail = l.2.toList ++ '"' :: cs := by
      have hsplit : l.1.toList ++ ('=' :: '"' :: (l.2.toList ++ '"' :: cs)) = l.1.toList ++ ('=' :: '"' :: tail) := by
        rw [← hcs, labelText]
        simp
      have htails := List.append_cancel_left hsplit
      simpa using htails.symm
    rw [htail, hval] at hread
    exact ⟨hisWord, (Escapes.read_eq_some_iff (by decide) _ _).mp ⟨last, hread⟩⟩
  · cases hvalue

theorem readLabel_more (h : readLabel cs = some (l, rest)) (more : List Char) :
    readLabel (cs ++ more) = some (l, rest ++ more) := by
  obtain ⟨⟨w, after⟩, hword, hvalue⟩ := Option.bind_eq_some_iff.mp h
  simp only at hvalue
  split at hvalue
  · obtain ⟨⟨v, last⟩, hread, heq⟩ := Option.map_eq_some_iff.mp hvalue
    cases heq
    simp only [readLabel, readWord_more hword more, Option.bind_some, List.cons_append,
      Escapes.read_append (by decide : '"' ≠ '\\') hread more, Option.map_some]
  · cases hvalue

/-- The labels of a sample, without the opening brace. -/
def labelsText (labels : Labels) (rest : List Char) : List Char :=
  [','].intercalate (labels.map labelText) ++ '\x7d' :: rest

theorem labelsText_singleton (l : String × String) (rest : List Char) :
    labelsText [l] rest = labelText l ++ '\x7d' :: rest := by
  simp [labelsText]

theorem labelsText_cons (l l' : String × String) (labels : Labels) (rest : List Char) :
    labelsText (l :: l' :: labels) rest = labelText l ++ ',' :: labelsText (l' :: labels) rest := by
  simp [labelsText, List.intercalate_cons_cons]

theorem readLabels_text (hne : labels ≠ []) (h : ∀ l ∈ labels, PlainLabel l) (hfuel : labels.length ≤ fuel)
    (rest : List Char) : readLabels fuel (labelsText labels rest) = some (labels, rest) := by
  induction labels generalizing fuel with
  | nil => exact absurd rfl hne
  | cons l labels ih =>
    cases fuel with
    | zero => cases hfuel
    | succ fuel =>
      have hl := h l List.mem_cons_self
      cases labels with
      | nil => simp only [labelsText_singleton, readLabels, readLabel_text hl, Option.bind_some]
      | cons l' labels =>
        have hrest := ih (by simp) (fun m hm => h m (List.mem_cons_of_mem l hm)) (Nat.le_of_succ_le_succ hfuel)
        simp only [labelsText_cons, readLabels, readLabel_text hl, Option.bind_some, hrest, Option.map_some]

theorem plain_of_readLabels (hne : labels ≠ []) (h : readLabels fuel (labelsText labels cs) = some (labels, rest)) :
    (∀ l ∈ labels, PlainLabel l) ∧ rest = cs := by
  induction labels generalizing fuel with
  | nil => exact absurd rfl hne
  | cons l labels ih =>
    cases fuel with
    | zero => cases h
    | succ fuel =>
      obtain ⟨⟨l', after⟩, hfirst, hafter⟩ := Option.bind_eq_some_iff.mp h
      have hsame : l' = l := by
        simp only at hafter
        split at hafter
        · obtain ⟨⟨ls, last⟩, -, heq⟩ := Option.map_eq_some_iff.mp hafter
          exact (List.cons.inj (congrArg Prod.fst heq)).1
        · exact (List.cons.inj (congrArg Prod.fst (Option.some.inj hafter))).1
        · cases hafter
      subst hsame
      cases labels with
      | nil =>
        rw [labelsText_singleton] at hfirst
        have hplain := plain_of_readLabel hfirst
        rw [readLabel_text hplain] at hfirst
        obtain rfl : '\x7d' :: cs = after := congrArg Prod.snd (Option.some.inj hfirst)
        refine ⟨by simpa using hplain, ?_⟩
        exact (congrArg Prod.snd (Option.some.inj hafter)).symm
      | cons l'' labels =>
        rw [labelsText_cons] at hfirst
        have hplain := plain_of_readLabel hfirst
        rw [readLabel_text hplain] at hfirst
        obtain rfl : ',' :: labelsText (l'' :: labels) cs = after := congrArg Prod.snd (Option.some.inj hfirst)
        obtain ⟨⟨ls, last⟩, hmore, heq⟩ := Option.map_eq_some_iff.mp hafter
        obtain ⟨hls, hlast⟩ := Prod.mk.inj heq
        have hls' : ls = l'' :: labels := (List.cons.inj hls).2
        have hlast' : last = rest := hlast
        have hmore' : readLabels fuel (labelsText (l'' :: labels) cs) = some (l'' :: labels, rest) := by
          rw [hmore, hls', hlast']
        obtain ⟨hplains, hrest⟩ := ih (by simp) hmore'
        exact ⟨List.forall_mem_cons.mpr ⟨hplain, hplains⟩, hrest⟩

theorem readLabels_more {fuel' : Nat} (h : readLabels fuel cs = some (labels, rest)) (hfuel : fuel ≤ fuel')
    (more : List Char) : readLabels fuel' (cs ++ more) = some (labels, rest ++ more) := by
  induction fuel generalizing fuel' cs labels with
  | zero => cases h
  | succ fuel ih =>
    cases fuel' with
    | zero => cases hfuel
    | succ fuel' =>
      obtain ⟨⟨l, after⟩, hfirst, hafter⟩ := Option.bind_eq_some_iff.mp h
      simp only at hafter
      split at hafter
      · obtain ⟨⟨ls, last⟩, hmore, heq⟩ := Option.map_eq_some_iff.mp hafter
        cases heq
        simp only [readLabels, readLabel_more hfirst more, Option.bind_some, List.cons_append,
          ih hmore (Nat.le_of_succ_le_succ hfuel), Option.map_some]
      · cases hafter
        simp only [readLabels, readLabel_more hfirst more, Option.bind_some, List.cons_append]
      · cases hafter

/-- The length of the labels as they are written, each with the comma or brace after it. -/
def labelsLength (labels : Labels) : Nat := (labels.map fun l => (labelText l).length + 1).sum

theorem length_labelsText (hne : labels ≠ []) (rest : List Char) :
    (labelsText labels rest).length = labelsLength labels + rest.length := by
  induction labels with
  | nil => exact absurd rfl hne
  | cons l labels ih =>
    cases labels with
    | nil =>
      simp [labelsText_singleton, labelsLength]
      omega
    | cons l' labels =>
      rw [labelsText_cons, List.length_append, List.length_cons, ih (by simp)]
      simp only [labelsLength, List.map_cons, List.sum_cons]
      omega

theorem length_le_labelsLength (labels : Labels) : labels.length ≤ labelsLength labels := by
  induction labels with
  | nil => simp
  | cons l labels ih =>
    simp only [labelsLength, List.map_cons, List.sum_cons, List.length_cons] at ih ⊢
    omega

theorem length_readLabel (h : readLabel cs = some (l, rest)) : (labelText l).length + rest.length ≤ cs.length := by
  obtain ⟨⟨w, after⟩, hword, hvalue⟩ := Option.bind_eq_some_iff.mp h
  simp only at hvalue
  split at hvalue
  · obtain ⟨⟨v, last⟩, hread, heq⟩ := Option.map_eq_some_iff.mp hvalue
    cases heq
    have hlength := Escapes.length_read hread
    rw [(readWord_eq_some hword).1]
    simp only [labelText, String.toList_ofList, List.length_append, List.length_cons, List.length_nil]
    omega
  · cases hvalue

/-- What is read is never longer than what is written. -/
theorem length_readLabels (h : readLabels fuel cs = some (labels, rest)) :
    labelsLength labels + rest.length ≤ cs.length := by
  induction fuel generalizing cs labels with
  | zero => cases h
  | succ fuel ih =>
    obtain ⟨⟨l, after⟩, hfirst, hafter⟩ := Option.bind_eq_some_iff.mp h
    have hlength := length_readLabel hfirst
    simp only at hafter hlength
    split at hafter
    · obtain ⟨⟨ls, last⟩, hmore, heq⟩ := Option.map_eq_some_iff.mp hafter
      cases heq
      have hrest := ih hmore
      simp only [labelsLength, List.map_cons, List.sum_cons, List.length_cons] at hrest hlength ⊢
      omega
    · cases hafter
      simp only [labelsLength, List.map_cons, List.map_nil, List.sum_cons, List.sum_nil, List.length_cons] at hlength ⊢
      omega
    · cases hafter

end Labels

/-! ## Texts of one line and of more -/

theorem readLines_of_not_mem {text : List Char} (h : '\n' ∉ text) : readLines text = readLine text := by
  rw [readLines, List.splitOn_eq_singleton h, List.mapM_cons, List.mapM_nil]
  cases readLine text with
  | none => rfl
  | some items => simp

theorem readLines_append {first : List Char} (h : '\n' ∉ first) (rest : List Char) :
    readLines (first ++ '\n' :: rest) = (readLine first).bind fun items => (readLines rest).map (items ++ ·) := by
  rw [readLines, List.splitOn_append_cons_self_of_not_mem h rest, List.mapM_cons, readLines]
  cases readLine first with
  | none => rfl
  | some items => cases (rest.splitOn '\n').mapM readLine <;> rfl

theorem readLines_eq_nil_iff (text : List Char) :
    readLines text = some [] ↔ ∀ line ∈ text.splitOn '\n', readLine line = some [] := by
  rw [readLines]
  generalize text.splitOn '\n' = pieces
  induction pieces with
  | nil => simp
  | cons first pieces ih =>
    rw [List.mapM_cons, List.forall_mem_cons, ← ih]
    cases readLine first with
    | none => simp
    | some items =>
      cases pieces.mapM readLine with
      | none => simp
      | some more => simp

/-! ## Comments -/

/-- The first line of a help text has no escapes but those of help texts, and nothing can be read of the
others. -/
def QuietHelp (help : String) : Prop :=
  match help.toList.splitOn '\n' with
  | [] => True
  | doc :: more => (helpEscapes.unescape doc).isSome ∧ ∀ line ∈ more, readLine line = some []

section Comments

variable {name help : String} {kind : Kind}

theorem newline_not_mem_of_validName (h : ValidName name) : '\n' ∉ name.toList := by
  intro hmem
  exact absurd (isWord_all h _ hmem) (by decide)

theorem readLine_type (h : ValidName name) (kind : Kind) : readLine (Line.type name kind).text = some [.type name kind] := by
  have hword := readWord_append h (by decide : isNameChar ' ' = false) kind.value.toList
  have hrest : readComment (" TYPE ".toList ++ (name.toList ++ ' ' :: kind.value.toList)) = some [.type name kind] := by
    have hsplit : splitFirst ' ' ("TYPE".toList ++ ' ' :: (name.toList ++ ' ' :: kind.value.toList)) = some _ :=
      splitFirst_append (by decide) _
    have hkind : readKind kind.value.toList = some kind := by cases kind <;> decide
    have hblank : (" TYPE ".toList ++ (name.toList ++ ' ' :: kind.value.toList)).dropWhile isBlank =
        "TYPE".toList ++ ' ' :: (name.toList ++ ' ' :: kind.value.toList) := rfl
    rw [readComment, hblank, hsplit]
    simp only [if_neg (by decide : ¬ "TYPE".toList = "HELP".toList), if_pos, hword, Option.bind_some, hkind,
      Option.map_some, String.ofList_toList]
  exact hrest

theorem readLines_type (h : ValidName name) (kind : Kind) :
    readLines (Line.type name kind).text = some [.type name kind] := by
  rw [readLines_of_not_mem, readLine_type h]
  have hkind : '\n' ∉ kind.value.toList := by cases kind <;> simp [Kind.value]
  simp [Line.text_type, hkind, newline_not_mem_of_validName h]

theorem readLine_help (h : ValidName name) (doc : List Char) :
    readLine ("# HELP ".toList ++ name.toList ++ ' ' :: doc) =
      if (helpEscapes.unescape doc).isSome then some [] else none := by
  have hword := readWord_append h (by decide : isNameChar ' ' = false) doc
  have hrest : readComment (" HELP ".toList ++ (name.toList ++ ' ' :: doc)) =
      if (helpEscapes.unescape doc).isSome then some [] else none := by
    have hsplit : splitFirst ' ' ("HELP".toList ++ ' ' :: (name.toList ++ ' ' :: doc)) = some _ :=
      splitFirst_append (by decide) _
    have hblank : (" HELP ".toList ++ (name.toList ++ ' ' :: doc)).dropWhile isBlank =
        "HELP".toList ++ ' ' :: (name.toList ++ ' ' :: doc) := rfl
    rw [readComment, hblank, hsplit]
    simp only [if_pos, hword, Option.bind_some]
  rw [List.append_assoc]
  exact hrest

theorem readLines_help_iff (h : ValidName name) (help : String) :
    readLines (Line.help name help).text = some [] ↔ QuietHelp help := by
  have hhead : ∀ doc : List Char, '\n' ∉ doc → '\n' ∉ "# HELP ".toList ++ name.toList ++ ' ' :: doc := by
    intro doc hdoc
    simp [hdoc, newline_not_mem_of_validName h]
  rw [QuietHelp, Line.text_help]
  rcases splitOn_cases '\n' help.toList with ⟨hone, hpieces⟩ | ⟨doc, rest, htext, hdoc, hpieces⟩
  · rw [hpieces, readLines_of_not_mem (hhead _ hone), readLine_help h]
    simp [Option.isSome_iff_ne_none]
  · rw [hpieces]
    simp only
    have hlines := readLines_append (hhead doc hdoc) rest
    rw [List.append_assoc _ (' ' :: doc), List.cons_append, ← htext] at hlines
    rw [hlines, readLine_help h, ← readLines_eq_nil_iff]
    clear hlines
    split
    · next hdoc => cases readLines rest <;> simp [hdoc]
    · next hdoc => simp [hdoc]

end Comments

/-! ## Samples -/

/-- A value as the collector writes it. -/
def IsToken (value : String) : Prop := value.toList ≠ [] ∧ ∀ c ∈ value.toList, isBlank c = false ∧ c ≠ '\n'

/-- Nothing in the label is special, nor does its value go on to the next line. -/
def CleanLabel (l : String × String) : Prop := PlainLabel l ∧ '\n' ∉ l.2.toList

section Samples

variable {name value : String} {labels labels' : Labels} {cs : List Char}

theorem readValue_token (h : IsToken value) : readValue (' ' :: value.toList) = some value := by
  have hblank : value.toList.any isBlank = false := by
    rw [List.any_eq_false]
    intro c hc
    simp [(h.2 c hc).1]
  simp [readValue, h.1, hblank]

theorem readValue_eq_some {v : String} (h : readValue cs = some v) : cs = ' ' :: v.toList := by
  unfold readValue at h
  split at h
  · split at h
    · cases h
    · cases h
      rw [String.toList_ofList]
  · cases h

/-- A line that begins with a valid name is a sample or nothing. -/
theorem readLine_name (h : ValidName name) (cs : List Char) :
    readLine (name.toList ++ cs) = (readSample (name.toList ++ cs)).map ([·]) := by
  cases hname : name.toList with
  | nil => exact absurd hname (isWord_ne_nil h)
  | cons c rest =>
    have hc : isNameChar c = true := isWord_all h c (by rw [hname]; exact List.mem_cons_self)
    have hblank : isBlank c = false := by
      rw [← Bool.not_eq_true]
      intro hblank
      rw [isBlank, Bool.or_eq_true, beq_iff_eq, beq_iff_eq] at hblank
      rcases hblank with rfl | rfl <;> cases hc
    have hhash : c ≠ '#' := by
      rintro rfl
      cases hc
    rw [readLine, List.cons_append, List.dropWhile_cons_of_neg (by simp [hblank])]
    split
    · next heq => cases heq
    · next heq => exact absurd (List.cons.inj heq).1 hhash
    · rfl

theorem readSample_bare (h : ValidName name) (cs : List Char) :
    readSample (name.toList ++ ' ' :: cs) = (readValue (' ' :: cs)).map (.sample name []) := by
  rw [readSample, readWord_append h (by decide)]
  simp

theorem readSample_labels (h : ValidName name) (cs : List Char) :
    readSample (name.toList ++ '\x7b' :: cs) =
      (readLabels cs.length cs).bind fun q => (readValue q.2).map (.sample name q.1) := by
  rw [readSample, readWord_append h (by decide)]
  simp

theorem renderLabels_append (hne : labels ≠ []) (rest : List Char) :
    renderLabels labels ++ rest = '\x7b' :: labelsText labels rest := by
  simp [renderLabels, hne, labelsText]

theorem newline_not_mem_of_token (h : IsToken value) : '\n' ∉ ' ' :: value.toList := by
  intro hmem
  rcases List.mem_cons.mp hmem with hblank | hmem
  · cases hblank
  · exact (h.2 _ hmem).2 rfl

theorem newline_not_mem_labelText {l : String × String} (h : CleanLabel l) : '\n' ∉ labelText l := by
  have hname : '\n' ∉ l.1.toList := by
    intro hmem
    exact absurd (isWord_all h.1.1 _ hmem) (by decide)
  simp [labelText, hname, h.2]

theorem newline_not_mem_renderLabels (h : ∀ l ∈ labels, CleanLabel l) : '\n' ∉ renderLabels labels := by
  rw [renderLabels]
  split
  · simp
  · intro hmem
    rw [List.cons_append, List.mem_cons, List.mem_append, List.mem_singleton] at hmem
    rcases hmem with hbrace | hmem | hbrace
    · cases hbrace
    · rcases mem_intercalate hmem with hcomma | ⟨text, htext, hmem⟩
      · cases List.mem_singleton.mp hcomma
      · obtain ⟨l, hl, rfl⟩ := List.mem_map.mp htext
        exact newline_not_mem_labelText (h l hl) hmem
    · cases hbrace

/-- A clean sample is read as it was meant. -/
theorem readLines_sample (hname : ValidName name) (hvalue : IsToken value) (h : ∀ l ∈ labels, CleanLabel l) :
    readLines (Line.sample name labels value).text = some [.sample name labels value] := by
  rw [Line.text_sample, readLines_of_not_mem, List.append_assoc, readLine_name hname]
  · by_cases hne : labels = []
    · rw [hne, renderLabels, if_pos rfl, List.nil_append, readSample_bare hname, readValue_token hvalue]
      rfl
    · have hfuel : labels.length ≤ (labelsText labels (' ' :: value.toList)).length := by
        have hlength := length_le_labelsLength labels
        rw [length_labelsText hne]
        omega
      rw [renderLabels_append hne, readSample_labels hname,
        readLabels_text hne (fun l hl => (h l hl).1) hfuel]
      simp [readValue_token hvalue]
  · rw [List.mem_append, List.mem_append]
    rintro ((hmem | hmem) | hmem)
    · exact newline_not_mem_of_validName hname hmem
    · exact newline_not_mem_renderLabels h hmem
    · exact newline_not_mem_of_token hvalue hmem

/-- What is read of a sample begins with what is read of its first line. -/
theorem readLines_sample_first {items : List RawItem} (hname : ValidName name) (hne : labels ≠ [])
    (h : readLines (Line.sample name labels value).text = some items) :
    ∃ first more E rest v, labelsText labels (' ' :: value.toList) = first ++ more ∧ '\n' ∉ first ∧
      readLabels first.length first = some (E, rest) ∧ readValue rest = some v ∧
      ∃ others, items = .sample name E v :: others := by
  rw [Line.text_sample, List.append_assoc, renderLabels_append hne] at h
  have hhead : ∀ first : List Char, '\n' ∉ first → '\n' ∉ name.toList ++ '\x7b' :: first := by
    intro first hfirst
    simp [hfirst, newline_not_mem_of_validName hname]
  rcases splitOn_cases '\n' (labelsText labels (' ' :: value.toList)) with
    ⟨hone, -⟩ | ⟨first, tail, htext, hfirst, -⟩
  · rw [readLines_of_not_mem (hhead _ hone), readLine_name hname, readSample_labels hname] at h
    obtain ⟨item, hitem, rfl⟩ := Option.map_eq_some_iff.mp h
    obtain ⟨⟨E, rest⟩, hlabels, hrest⟩ := Option.bind_eq_some_iff.mp hitem
    obtain ⟨v, hv, rfl⟩ := Option.map_eq_some_iff.mp hrest
    exact ⟨_, [], E, rest, v, (List.append_nil _).symm, hone, hlabels, hv, [], rfl⟩
  · have hlines := readLines_append (hhead first hfirst) tail
    rw [List.append_assoc, List.cons_append, ← htext, h, readLine_name hname, readSample_labels hname] at hlines
    obtain ⟨these, hthese, hmore⟩ := Option.bind_eq_some_iff.mp hlines.symm
    obtain ⟨others, -, rfl⟩ := Option.map_eq_some_iff.mp hmore
    obtain ⟨item, hitem, rfl⟩ := Option.map_eq_some_iff.mp hthese
    obtain ⟨⟨E, rest⟩, hlabels, hrest⟩ := Option.bind_eq_some_iff.mp hitem
    obtain ⟨v, hv, rfl⟩ := Option.map_eq_some_iff.mp hrest
    exact ⟨first, '\n' :: tail, E, rest, v, htext, hfirst, hlabels, hv, others, rfl⟩

/-- A sample gives at least one. -/
theorem length_readLines_sample {items : List RawItem} (hname : ValidName name) (hvalue : IsToken value)
    (h : readLines (Line.sample name labels value).text = some items) : 1 ≤ items.length := by
  by_cases hne : labels = []
  · rw [hne, readLines_sample hname hvalue (by simp)] at h
    cases h
    simp
  · obtain ⟨first, more, E, rest, v, -, -, -, -, others, rfl⟩ := readLines_sample_first hname hne h
    simp

/-- Labels that are read back as they were meant are clean. -/
theorem clean_of_readLines_sample (hname : ValidName name)
    (h : readLines (Line.sample name labels value).text = some [.sample name labels value]) :
    ∀ l ∈ labels, CleanLabel l := by
  by_cases hne : labels = []
  · simp [hne]
  · obtain ⟨first, more, E, rest, v, htext, hfirst, hlabels, hv, others, hitems⟩ :=
      readLines_sample_first hname hne h
    obtain ⟨-, rfl, rfl⟩ : name = name ∧ labels = E ∧ value = v := by simpa using (List.cons.inj hitems).1
    have hall := readLabels_more hlabels (by rw [htext, List.length_append]; omega :
      first.length ≤ (labelsText labels (' ' :: value.toList)).length) more
    rw [← htext] at hall
    obtain ⟨hplain, hrest⟩ := plain_of_readLabels hne hall
    rw [readValue_eq_some hv] at hrest
    obtain rfl : more = [] := by simpa using hrest
    rw [List.append_nil] at htext
    intro l hl
    refine ⟨hplain l hl, fun hmem => hfirst ?_⟩
    have htextl : '\n' ∈ labelText l := by simp [labelText, hmem]
    rw [← htext, labelsText, List.mem_append]
    exact .inl (mem_intercalate_of_mem (List.mem_map.mpr ⟨l, hl, rfl⟩) htextl)

/-- What is read is never longer than what was written. -/
theorem labelsLength_of_readLines_sample (hname : ValidName name) (hvalue : IsToken value)
    (h : readLines (Line.sample name labels value).text = some [.sample name labels' value]) :
    labelsLength labels' ≤ labelsLength labels := by
  by_cases hne : labels = []
  · rw [hne, readLines_sample hname hvalue (by simp)] at h
    obtain rfl : [] = labels' := by simpa using h
    simp [hne]
  · obtain ⟨first, more, E, rest, v, htext, -, hlabels, hv, others, hitems⟩ :=
      readLines_sample_first hname hne h
    obtain ⟨-, rfl, rfl⟩ : name = name ∧ labels' = E ∧ value = v := by simpa using (List.cons.inj hitems).1
    have hread := length_readLabels hlabels
    have hlength := congrArg List.length htext
    rw [length_labelsText hne, List.length_append] at hlength
    rw [readValue_eq_some hv] at hread
    omega

end Samples

/-! ## What is read has valid names -/

theorem validName_of_readWord {cs w rest : List Char} (h : readWord isNameStart isNameChar cs = some (w, rest)) :
    ValidName (String.ofList w) := by
  rw [ValidName, String.toList_ofList]
  exact (readWord_eq_some h).2

theorem validName_of_readSample {cs : List Char} {item : RawItem} (h : readSample cs = some item) :
    ValidName item.name := by
  obtain ⟨⟨w, rest⟩, hword, h⟩ := Option.bind_eq_some_iff.mp h
  simp only at h
  split at h
  · obtain ⟨q, -, h⟩ := Option.bind_eq_some_iff.mp h
    obtain ⟨v, -, rfl⟩ := Option.map_eq_some_iff.mp h
    exact validName_of_readWord hword
  · obtain ⟨v, -, rfl⟩ := Option.map_eq_some_iff.mp h
    exact validName_of_readWord hword

theorem validName_of_readComment {cs : List Char} {items : List RawItem} (h : readComment cs = some items) :
    ∀ item ∈ items, ValidName item.name := by
  unfold readComment at h
  split at h
  · cases h
    simp
  · split at h
    · obtain ⟨p, -, h⟩ := Option.bind_eq_some_iff.mp h
      split at h
      · split at h
        · cases h
          simp
        · cases h
      · cases h
    · split at h
      · obtain ⟨⟨w, rest⟩, hword, h⟩ := Option.bind_eq_some_iff.mp h
        simp only at h
        split at h
        · obtain ⟨kind, -, rfl⟩ := Option.map_eq_some_iff.mp h
          simpa [RawItem.name] using validName_of_readWord hword
        · cases h
      · cases h
        simp

theorem validName_of_readLine {line : List Char} {items : List RawItem} (h : readLine line = some items) :
    ∀ item ∈ items, ValidName item.name := by
  unfold readLine at h
  split at h
  · cases h
    simp
  · exact validName_of_readComment h
  · obtain ⟨item, hitem, rfl⟩ := Option.map_eq_some_iff.mp h
    simpa using validName_of_readSample hitem

theorem validName_of_readLines {text : List Char} {items : List RawItem} (h : readLines text = some items) :
    ∀ item ∈ items, ValidName item.name := by
  obtain ⟨groups, hgroups, rfl⟩ := Option.map_eq_some_iff.mp h
  intro item hitem
  obtain ⟨group, hgroup, hitem⟩ := List.mem_flatten.mp hitem
  obtain ⟨line, -, hread⟩ := exists_of_mapM_eq_some hgroups group hgroup
  exact validName_of_readLine hread item hitem

end Occp.Metrics
