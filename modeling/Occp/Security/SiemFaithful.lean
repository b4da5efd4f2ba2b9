import Occp.Lib.Except
import Occp.Lib.Regex
import Occp.Security.SiemDecoding

/-!
# What a formatted event says (`security/siem_export.py`)

JSON is read back whatever an event holds. CEF leaves the header's line breaks and every key as they
are, LEEF escapes nothing, and a syslog line lacks the structured data that come before its message.
-/

namespace Occp.Security

open Lib

/-! ## What there is to be read -/

def SingleLine (text : List Char) : Prop := ∀ c ∈ text, c ≠ '\n' ∧ c ≠ '\r'

instance (text : List Char) : Decidable (SingleLine text) := List.decidableBAll _ text

def NoBreak (s : String) : Prop := SingleLine s.toList

instance (s : String) : Decidable (NoBreak s) := inferInstanceAs (Decidable (SingleLine s.toList))

/-- No key stands for two values. -/
def OneValue (attributes : List (String × String)) : Prop :=
  ∀ k v v', (k, v) ∈ attributes → (k, v') ∈ attributes → v = v'

/-- Each attribute is found and no other is. -/
structure Reads (found written : List (String × String)) : Prop where
  mem_iff : ∀ a, a ∈ found ↔ a ∈ written
  oneValue : OneValue found

theorem Reads.written_oneValue {found written : List (String × String)} (h : Reads found written) : OneValue written := by
  intro k v v' hv hv'
  exact h.oneValue k v v' ((h.mem_iff _).mpr hv) ((h.mem_iff _).mpr hv')

def metadataAttributes (e : SIEMEvent) : List (String × String) := e.metadata.map fun m => (underscored m.1, m.2)

def cefHeader (e : SIEMEvent) : List String :=
  ["CEF:0", "OCCP", "AgentControlPlane", "1.0", e.eventType, e.name, toString e.severity.cefSeverity]

def cefAttributes (e : SIEMEvent) (rt : String) : List (String × String) :=
  [("rt", rt), ("src", e.source), ("act", e.eventType), ("outcome", e.outcome)] ++
    (if e.actor = "" then [] else [("suser", e.actor)]) ++
    (if e.target = "" then [] else [("target", e.target)]) ++ metadataAttributes e

def leefHeader (e : SIEMEvent) : List String := ["LEEF:2.0", "OCCP", "AgentControlPlane", "1.0", e.eventType]

def leefAttributes (e : SIEMEvent) (devTime : String) : List (String × String) :=
  [("devTime", devTime), ("sev", e.severity.value), ("src", e.source), ("outcome", e.outcome)] ++
    (if e.actor = "" then [] else [("usrName", e.actor)]) ++
    (if e.target = "" then [] else [("resource", e.target)]) ++
    (if e.description = "" then [] else [("msg", e.description)]) ++ metadataAttributes e

def syslogPri (e : SIEMEvent) : String := s!"<{syslogFacility * 8 + e.severity.syslogSeverity}>1"

def syslogHeader (e : SIEMEvent) (timestamp : String) : List String :=
  [syslogPri e, timestamp, "occp-agent", "OCCP", "-", underscored e.eventType]

def jsonFields (numeral : Rat → Json.Numeral) (e : SIEMEvent) : List (String × Json.Field) :=
  [("eventId", .text e.eventId), ("timestamp", .numeral (numeral e.timestamp)), ("source", .text e.source),
    ("eventType", .text e.eventType), ("severity", .text e.severity.value), ("description", .text e.description),
    ("actor", .text e.actor), ("target", .text e.target), ("outcome", .text e.outcome),
    ("metadata", .object e.metadata)]

/-- Reading the text by the rules of the format gives what the event has. -/
def Recovered (numeral : Rat → Json.Numeral) (e : SIEMEvent) (text : List Char) : SIEMFormat → Prop
  | .json => Json.readFields text = some (jsonFields numeral e)
  | .cef => ∃ rt record, isoTimestamp e.timestamp = .ok rt ∧ decodeCef text = some record ∧
      record.header = cefHeader e ∧ Reads record.attributes (cefAttributes e rt)
  | .leef => ∃ devTime record, isoTimestamp e.timestamp = .ok devTime ∧ decodeLeef text = some record ∧
      record.header = leefHeader e ∧ Reads record.attributes (leefAttributes e devTime)
  | .syslog => ∃ timestamp, isoTimestamp e.timestamp = .ok timestamp ∧
      decodeSyslog text = some (syslogHeader e timestamp, e.name)

def Unambiguous (numeral : Rat → Json.Numeral) (format : SIEMFormat) (e : SIEMEvent) (text : List Char) : Prop :=
  SingleLine text ∧ Recovered numeral e text format

/-! ## CEF -/

/-- No line breaks in the header, and keys that a value cannot be taken for. -/
structure CefClean (e : SIEMEvent) (rt : String) : Prop where
  eventType : NoBreak e.eventType
  name : NoBreak e.name
  keys : ∀ a ∈ cefAttributes e rt, NoBreak a.1 ∧ '=' ∉ a.1.toList ∧ '\\' ∉ a.1.toList
  oneValue : OneValue (cefAttributes e rt)

section Cef

variable {e : SIEMEvent} {rt : String} {text : List Char}

def cefField (field : List Char) : List Char := cefHeaderEscapes.escape field ++ ['|']

def cefText (a : String × String) : List Char := keyValue a.1 (cefExtEscapes.escape a.2.toList)

theorem escape_of_timeChars (h : ∀ c ∈ rt.toList, isTimeChar c = true) : cefExtEscapes.escape rt.toList = rt.toList := by
  apply Escapes.escape_of_plain
  intro c hc
  have hne {d : Char} (hd : isTimeChar d = false) : c ≠ d := by
    rintro rfl
    rw [h c hc] at hd
    cases hd
  simp [cefExtEscapes, hne (by decide : isTimeChar '\\' = false), hne (by decide : isTimeChar '=' = false),
    hne (by decide : isTimeChar '\n' = false), hne (by decide : isTimeChar '\r' = false)]

theorem formatCef_eq (hrt : isoTimestamp e.timestamp = .ok rt) :
    formatCef e = .ok ((cefHeader e).flatMap (fun f => cefField f.toList) ++
      [' '].intercalate ((cefAttributes e rt).map cefText)) := by
  have hext : [keyValue "rt" rt.toList, keyValue "src" (cefEscapeExt e.source), keyValue "act" (cefEscapeExt e.eventType),
      keyValue "outcome" (cefEscapeExt e.outcome)] ++
    (if e.actor = "" then [] else [keyValue "suser" (cefEscapeExt e.actor)]) ++
    (if e.target = "" then [] else [keyValue "target" (cefEscapeExt e.target)]) ++
    (e.metadata.map fun m => keyValue (underscored m.1) (cefEscapeExt m.2)) = (cefAttributes e rt).map cefText := by
    simp only [cefAttributes, metadataAttributes, List.map_append, List.map_cons, List.map_nil, List.map_map, cefText,
      cefEscapeExt_eq, escape_of_timeChars (isoTimestamp_chars hrt)]
    split_ifs <;> rfl
  have hsev : cefHeaderEscapes.escape (toString e.severity.cefSeverity).toList =
      (toString e.severity.cefSeverity).toList := by
    cases e.severity <;> rfl
  have hproduct : "CEF:0|OCCP|AgentControlPlane|1.0".toList ++ ['|'] =
      ["CEF:0", "OCCP", "AgentControlPlane", "1.0"].flatMap fun f => cefField f.toList := by
    decide +kernel
  have hheader : cefHeader e =
      ["CEF:0", "OCCP", "AgentControlPlane", "1.0"] ++ [e.eventType, e.name, toString e.severity.cefSeverity] := rfl
  unfold formatCef
  rw [hrt, hheader, List.flatMap_append, ← hproduct]
  simp only [Lib.Except.ok_bind]
  rw [hext]
  simp only [cefEscapeHeader_eq, List.flatMap_cons, List.flatMap_nil, cefField, hsev,
    List.append_assoc, List.cons_append, List.nil_append, List.append_nil]
  rfl

/-! ### What a CEF text is read as -/

theorem readMany_cefHeader (fields : List String) (rest : List Char) :
    readMany (cefHeaderEscapes.read '|') fields.length (fields.flatMap (fun f => cefField f.toList) ++ rest) =
      some (fields.map String.toList, rest) := by
  have hread := @readMany_flatMap _ _ (cefHeaderEscapes.read '|') cefField
    (fields.map String.toList) (fun f _ rest => by
      rw [cefField, List.append_assoc]
      exact Escapes.read_escape (by decide) (by decide) f rest) rest
  rwa [List.length_map, List.flatMap_map] at hread

theorem isKey_iff {key : String} : isKey key = true ↔ ' ' ∉ key.toList ∧ '=' ∉ key.toList ∧ '\\' ∉ key.toList := by
  unfold isKey
  simp only [List.all_eq_true, Bool.and_eq_true, decide_eq_true_eq]
  constructor
  · intro h
    refine ⟨fun hc => (h _ hc).1.1 rfl, fun hc => (h _ hc).1.2 rfl, fun hc => (h _ hc).2 rfl⟩
  · rintro ⟨hblank, hequals, hslash⟩ c hc
    refine ⟨⟨?_, ?_⟩, ?_⟩
    · rintro rfl
      exact hblank hc
    · rintro rfl
      exact hequals hc
    · rintro rfl
      exact hslash hc

/-- The values of an extension are read one after the other, each up to the last blank before the next key. -/
theorem cefValues_text (key value : String) (attributes : List (String × String))
    (hkeys : ∀ a ∈ attributes, isKey a.1 = true) (fuel : Nat) (hfuel : attributes.length < fuel) :
    cefValues fuel key.toList
      (cefExtEscapes.escape value.toList ++ Regex.trail [' '] (attributes.map cefText)) =
        some ((key, value) :: attributes) := by
  induction attributes generalizing key value fuel with
  | nil =>
    cases fuel with
    | zero => cases hfuel
    | succ fuel =>
      have hcut : Escapes.cut '=' (cefExtEscapes.escape value.toList) = none := by
        have h := Escapes.cut_escape_append (by decide : (cefExtEscapes.letter '=').isSome) value.toList []
        rwa [List.append_nil] at h
      have hnil : Regex.trail [' '] (([] : List (String × String)).map cefText) = [] := rfl
      rw [hnil, List.append_nil, cefValues, hcut]
      simp
  | cons a attributes ih =>
    obtain ⟨nextKey, nextValue⟩ := a
    cases fuel with
    | zero => cases hfuel
    | succ fuel =>
      obtain ⟨hblank, hequals, hslash⟩ := isKey_iff.mp (hkeys _ List.mem_cons_self)
      set rest := cefExtEscapes.escape nextValue.toList ++ Regex.trail [' '] (attributes.map cefText) with hrest
      have htext : Regex.trail [' '] (((nextKey, nextValue) :: attributes).map cefText) =
          (' ' :: nextKey.toList) ++ '=' :: rest := by
        simp [Regex.trail, cefText, keyValue, hrest]
      have hplain : ∀ c ∈ ' ' :: nextKey.toList, c ≠ '\\' ∧ c ≠ '=' := by
        intro c hc
        rcases List.mem_cons.mp hc with rfl | hc
        · decide
        · exact ⟨fun h => hslash (h ▸ hc), fun h => hequals (h ▸ hc)⟩
      have hcut : Escapes.cut '=' (cefExtEscapes.escape value.toList ++ ((' ' :: nextKey.toList) ++ '=' :: rest)) =
          some (cefExtEscapes.escape value.toList ++ ' ' :: nextKey.toList, rest) := by
        rw [Escapes.cut_escape_append (by decide), Escapes.cut_plain_append hplain, Escapes.cut_stop (by decide)]
        simp
      have hmore := ih nextKey nextValue (fun a ha => hkeys a (List.mem_cons_of_mem _ ha)) fuel (by simpa using hfuel)
      rw [htext, cefValues, hcut]
      simp only [splitLast_append hblank, Option.bind_eq_bind, Option.bind_some, Escapes.unescape_escape, hrest, hmore]
      simp

theorem cefExtension_text {attributes : List (String × String)} (hne : attributes ≠ [])
    (hkeys : ∀ a ∈ attributes, isKey a.1 = true) :
    cefExtension ([' '].intercalate (attributes.map cefText)) = some attributes := by
  cases attributes with
  | nil => exact absurd rfl hne
  | cons a attributes =>
    obtain ⟨key, value⟩ := a
    obtain ⟨hblank, hequals, hslash⟩ := isKey_iff.mp (hkeys _ List.mem_cons_self)
    set rest := cefExtEscapes.escape value.toList ++ Regex.trail [' '] (attributes.map cefText) with hrest
    have htext : [' '].intercalate (((key, value) :: attributes).map cefText) = key.toList ++ '=' :: rest := by
      rw [List.map_cons, Regex.intercalate_cons_eq]
      simp [cefText, keyValue, hrest]
    have hplain : ∀ c ∈ key.toList, c ≠ '\\' ∧ c ≠ '=' := by
      intro c hc
      exact ⟨fun h => hslash (h ▸ hc), fun h => hequals (h ▸ hc)⟩
    have hcut : Escapes.cut '=' (key.toList ++ '=' :: rest) = some (key.toList, rest) := by
      rw [Escapes.cut_plain_append hplain, Escapes.cut_stop (by decide)]
      simp
    have hlength : attributes.length < rest.length + 1 := by
      have htrail : attributes.length ≤ (Regex.trail [' '] (attributes.map cefText)).length := by
        rw [Regex.trail, List.length_flatMap]
        have hsum := List.length_le_sum_of_one_le ((attributes.map cefText).map fun t => ([' '] ++ t).length) (by
          intro n hn
          obtain ⟨t, -, rfl⟩ := List.mem_map.mp hn
          simp)
        simpa using hsum
      rw [hrest, List.length_append]
      omega
    have hvalues := cefValues_text key value attributes (fun a ha => hkeys a (List.mem_cons_of_mem _ ha)) _ hlength
    rw [← hrest] at hvalues
    rw [htext, cefExtension, hcut]
    simp only [Option.bind_eq_bind, Option.bind_some, hvalues]
    rw [if_pos (List.all_eq_true.mpr hkeys)]

/-- Only words are read as keys. -/
theorem isKey_of_cefExtension {cs : List Char} {attributes : List (String × String)}
    (h : cefExtension cs = some attributes) : ∀ a ∈ attributes, isKey a.1 = true := by
  simp only [cefExtension, Option.bind_eq_bind, Option.bind_eq_some_iff, Prod.exists] at h
  obtain ⟨key, rest, -, found, -, hif⟩ := h
  split at hif
  · next hall =>
    cases hif
    exact List.all_eq_true.mp hall
  · cases hif

theorem decodeCef_eq (fields : List String) (hlength : fields.length = 7) (rest : List Char) :
    decodeCef (fields.flatMap (fun f => cefField f.toList) ++ rest) =
      (cefExtension rest).map fun attributes => { header := fields, attributes } := by
  have hread := readMany_cefHeader fields rest
  rw [hlength] at hread
  have hback : (fields.map String.toList).map String.ofList = fields := by simp
  rw [decodeCef, hread]
  simp only [Option.bind_eq_bind, Option.bind_some, hback]
  cases cefExtension rest <;> rfl

theorem cefAttributes_ne_nil : cefAttributes e rt ≠ [] := by simp [cefAttributes]

theorem singleLine_header_escape {cs : List Char} : SingleLine (cefHeaderEscapes.escape cs) ↔ SingleLine cs := by
  have hletter {c d : Char} (h : cefHeaderEscapes.letter c = some d) : d = '\\' ∨ d = '|' := by
    simp only [cefHeaderEscapes] at h
    split_ifs at h
    · exact .inl (Option.some.inj h).symm
    · exact .inr (Option.some.inj h).symm
  constructor
  · intro h c hc
    constructor
    · rintro rfl
      exact (h _ (Escapes.mem_escape_of_mem hc (by decide))).1 rfl
    · rintro rfl
      exact (h _ (Escapes.mem_escape_of_mem hc (by decide))).2 rfl
  · intro h c hc
    rcases Escapes.mem_escape hc with ⟨hcs, -⟩ | rfl | ⟨d, hd⟩
    · exact h c hcs
    · decide
    · rcases hletter hd with rfl | rfl <;> decide

theorem singleLine_ext_escape (cs : List Char) : SingleLine (cefExtEscapes.escape cs) := by
  have hletter {c d : Char} (h : cefExtEscapes.letter c = some d) : d ∈ ['\\', '=', 'n', 'r'] := by
    simp only [cefExtEscapes] at h
    split_ifs at h <;> simp [← Option.some.inj h]
  intro c hc
  rcases Escapes.mem_escape hc with ⟨-, hnone⟩ | rfl | ⟨d, hd⟩
  · constructor
    · rintro rfl
      cases hnone
    · rintro rfl
      cases hnone
  · decide
  · have hmem := hletter hd
    constructor
    · rintro rfl
      exact absurd hmem (by decide)
    · rintro rfl
      exact absurd hmem (by decide)

theorem singleLine_append {xs ys : List Char} : SingleLine (xs ++ ys) ↔ SingleLine xs ∧ SingleLine ys := by
  simp only [SingleLine, List.forall_mem_append]

theorem singleLine_flatMap {α : Type} {write : α → List Char} {fields : List α} :
    SingleLine (fields.flatMap write) ↔ ∀ f ∈ fields, SingleLine (write f) := by
  simp only [SingleLine, List.mem_flatMap]
  constructor
  · intro h f hf c hc
    exact h c ⟨f, hf, hc⟩
  · rintro h c ⟨f, hf, hc⟩
    exact h f hf c hc

theorem singleLine_intercalate {sep : List Char} (hsep : SingleLine sep) {texts : List (List Char)} :
    SingleLine (sep.intercalate texts) ↔ ∀ t ∈ texts, SingleLine t := by
  constructor
  · intro h t ht c hc
    exact h c (mem_intercalate_of_mem ht hc)
  · intro h c hc
    rcases mem_intercalate hc with hc | ⟨t, ht, hc⟩
    · exact hsep c hc
    · exact h t ht c hc

theorem singleLine_keyValue {key : String} {value : List Char} :
    SingleLine (keyValue key value) ↔ NoBreak key ∧ SingleLine value := by
  have hequals : SingleLine ['='] := by decide
  rw [keyValue, ← List.singleton_append, singleLine_append, singleLine_append, NoBreak]
  exact and_congr_right fun _ => and_iff_right hequals

theorem singleLine_cef : SingleLine ((cefHeader e).flatMap (fun f => cefField f.toList) ++
    [' '].intercalate ((cefAttributes e rt).map cefText)) ↔
      (NoBreak e.eventType ∧ NoBreak e.name) ∧ ∀ a ∈ cefAttributes e rt, NoBreak a.1 := by
  have hpipe : SingleLine ['|'] := by decide
  have hblank : SingleLine [' '] := by decide
  have hfixed : ∀ f ∈ ["CEF:0", "OCCP", "AgentControlPlane", "1.0"], NoBreak f := by
    decide
  have hsev : NoBreak (toString e.severity.cefSeverity) := by
    cases e.severity <;> decide
  have hfield (f : String) : SingleLine (cefField f.toList) ↔ NoBreak f := by
    rw [cefField, singleLine_append, singleLine_header_escape, NoBreak]
    exact and_iff_left hpipe
  have hattribute (a : String × String) : SingleLine (cefText a) ↔ NoBreak a.1 := by
    rw [cefText, singleLine_keyValue]
    exact and_iff_left (singleLine_ext_escape a.2.toList)
  have hheader : (∀ f ∈ cefHeader e, NoBreak f) ↔ NoBreak e.eventType ∧ NoBreak e.name := by
    constructor
    · intro h
      exact ⟨h _ (by simp [cefHeader]), h _ (by simp [cefHeader])⟩
    · rintro ⟨htype, hname⟩ f hf
      have hsplit : f ∈ ["CEF:0", "OCCP", "AgentControlPlane", "1.0"] ++
        [e.eventType, e.name, toString e.severity.cefSeverity] := hf
      rcases List.mem_append.mp hsplit with hf | hf
      · exact hfixed f hf
      · simp only [List.mem_cons, List.not_mem_nil, or_false] at hf
        rcases hf with rfl | rfl | rfl
        · exact htype
        · exact hname
        · exact hsev
  rw [singleLine_append, singleLine_flatMap, singleLine_intercalate hblank, List.forall_mem_map]
  simp only [hfield, hattribute, hheader]

theorem not_mem_underscored (s : String) : ' ' ∉ (underscored s).toList := by
  rw [underscored, String.toList_ofList]
  intro h
  obtain ⟨c, -, hc⟩ := List.mem_flatMap.mp h
  split at hc
  · exact absurd hc (by decide)
  · next hne => exact hne (List.mem_singleton.mp hc).symm

theorem not_mem_cefKey {a : String × String} (h : a ∈ cefAttributes e rt) : ' ' ∉ a.1.toList := by
  simp only [cefAttributes, List.mem_append, metadataAttributes, List.mem_map] at h
  rcases h with ((h | h) | h) | ⟨m, -, rfl⟩
  · have hkey : a.1 ∈ ["rt", "src", "act", "outcome"] := by
      simp only [List.mem_cons, List.not_mem_nil, or_false] at h ⊢
      rcases h with rfl | rfl | rfl | rfl <;> simp
    exact (by decide : ∀ k ∈ ["rt", "src", "act", "outcome"], ' ' ∉ k.toList) a.1 hkey
  · split at h
    · cases h
    · rw [List.mem_singleton.mp h]
      exact (by decide : ' ' ∉ "suser".toList)
  · split at h
    · cases h
    · rw [List.mem_singleton.mp h]
      exact (by decide : ' ' ∉ "target".toList)
  · exact not_mem_underscored m.1

/-- A CEF text is unambiguous just when the header and the keys are clean. -/
theorem cef_iff (numeral : Rat → Json.Numeral) (hrt : isoTimestamp e.timestamp = .ok rt) (h : formatCef e = .ok text) :
    Unambiguous numeral .cef e text ↔ CefClean e rt := by
  rw [formatCef_eq hrt] at h
  obtain rfl := Except.ok.inj h
  have hdecode := decodeCef_eq (cefHeader e) rfl ([' '].intercalate ((cefAttributes e rt).map cefText))
  unfold Unambiguous
  rw [singleLine_cef]
  constructor
  · rintro ⟨⟨⟨htype, hname⟩, hkeys⟩, rt', record, hrt', hrecord, -, hreads⟩
    obtain rfl : rt = rt' := Except.ok.inj (hrt.symm.trans hrt')
    rw [hdecode] at hrecord
    obtain ⟨attributes, hattributes, rfl⟩ := Option.map_eq_some_iff.mp hrecord
    refine ⟨htype, hname, fun a ha => ⟨hkeys a ha, ?_⟩, hreads.written_oneValue⟩
    exact (isKey_iff.mp (isKey_of_cefExtension hattributes a ((hreads.mem_iff a).mpr ha))).2
  · rintro ⟨htype, hname, hkeys, hone⟩
    have hwords : ∀ a ∈ cefAttributes e rt, isKey a.1 = true := fun a ha =>
      isKey_iff.mpr ⟨not_mem_cefKey ha, (hkeys a ha).2⟩
    refine ⟨⟨⟨htype, hname⟩, fun a ha => (hkeys a ha).1⟩, rt, ⟨cefHeader e, cefAttributes e rt⟩, hrt, ?_, rfl,
      ⟨fun _ => Iff.rfl, hone⟩⟩
    rw [hdecode, cefExtension_text cefAttributes_ne_nil hwords]
    rfl

end Cef

end Occp.Security
