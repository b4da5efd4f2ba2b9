import Occp.Security.SiemFaithful

/-!
# Which events can be told from their text (`security/siem_export.py`)

LEEF, syslog and JSON, then all formats.
-/

namespace Occp.Security

open Lib

/-! ## LEEF -/

/-- No delimiter of the format and no line break, wherever the event's text goes. -/
structure LeefClean (e : SIEMEvent) (devTime : String) : Prop where
  eventType : NoBreak e.eventType ∧ '|' ∉ e.eventType.toList
  keys : ∀ a ∈ leefAttributes e devTime, NoBreak a.1 ∧ '=' ∉ a.1.toList ∧ '\t' ∉ a.1.toList
  values : ∀ a ∈ leefAttributes e devTime, NoBreak a.2 ∧ '\t' ∉ a.2.toList
  oneValue : OneValue (leefAttributes e devTime)

section Leef

variable {e : SIEMEvent} {devTime : String} {text : List Char}

def leefField (field : List Char) : List Char := field ++ ['|']

def leefText (a : String × String) : List Char := keyValue a.1 a.2.toList

/-- The dictionary that the formatter fills. -/
def leefAttrs (e : SIEMEvent) (devTime : String) : Dict String := Dict.setAll [] (leefAttributes e devTime)

theorem setAll_if {α : Type} (d : Dict α) (p : Prop) [Decidable p] (key : String) (v : α) :
    d.setAll (if p then [] else [(key, v)]) = if p then d else d.set key v := by
  split <;> rfl

theorem formatLeef_eq (h : isoTimestamp e.timestamp = .ok devTime) :
    formatLeef e = .ok ((leefHeader e).flatMap (fun f => leefField f.toList) ++
      ['\t'].intercalate ((leefAttrs e devTime).map leefText)) := by
  have hproduct : "LEEF:2.0|OCCP|AgentControlPlane|1.0".toList ++ ['|'] =
      ["LEEF:2.0", "OCCP", "AgentControlPlane", "1.0"].flatMap fun f => leefField f.toList := by
    decide +kernel
  have hheader : leefHeader e = ["LEEF:2.0", "OCCP", "AgentControlPlane", "1.0"] ++ [e.eventType] := rfl
  have hattrs : leefAttrs e devTime =
      ((((Dict.setAll []
        [("devTime", devTime), ("sev", e.severity.value), ("src", e.source), ("outcome", e.outcome)]).setAll
        (if e.actor = "" then [] else [("usrName", e.actor)])).setAll
        (if e.target = "" then [] else [("resource", e.target)])).setAll
        (if e.description = "" then [] else [("msg", e.description)])).setAll (metadataAttributes e) := by
    rw [leefAttrs, leefAttributes, Dict.setAll_append, Dict.setAll_append, Dict.setAll_append, Dict.setAll_append]
  have hbase : Dict.setAll []
      [("devTime", devTime), ("sev", e.severity.value), ("src", e.source), ("outcome", e.outcome)] =
        [("devTime", devTime), ("sev", e.severity.value), ("src", e.source), ("outcome", e.outcome)] := by
    simp [Dict.set]
  rw [setAll_if, setAll_if, setAll_if, hbase] at hattrs
  unfold formatLeef
  rw [h, hheader, List.flatMap_append, ← hproduct, hattrs]
  simp only [Lib.Except.ok_bind, List.flatMap_cons, List.flatMap_nil, leefField, List.append_assoc, List.cons_append,
    List.nil_append, List.append_nil]
  rfl

theorem leefAttrs_ne_nil : leefAttrs e devTime ≠ [] := by
  intro h
  have hsome := (Dict.isSome_get?_setAll [] (leefAttributes e devTime) "devTime").mpr (.inr (by simp [leefAttributes]))
  rw [← leefAttrs, h] at hsome
  cases hsome

theorem readMany_leefHeader {fields : List String} (hfields : ∀ f ∈ fields, '|' ∉ f.toList) (rest : List Char) :
    readMany (splitFirst '|') fields.length (fields.flatMap (fun f => leefField f.toList) ++ rest) =
      some (fields.map String.toList, rest) := by
  have hread := @readMany_flatMap _ _ (splitFirst '|') leefField (fields.map String.toList)
    (fun f hf rest => by
      obtain ⟨field, hfield, rfl⟩ := List.mem_map.mp hf
      rw [leefField, List.append_assoc]
      exact splitFirst_append (hfields field hfield) rest) rest
  rwa [List.length_map, List.flatMap_map] at hread

theorem leefAttribute_leefText {a : String × String} (h : '=' ∉ a.1.toList) : leefAttribute (leefText a) = some a := by
  rw [leefAttribute, leefText, keyValue, splitFirst_append h]
  simp

/-- What is read as an attribute has no delimiter before its value. -/
theorem leefAttribute_eq_some {piece : List Char} {a : String × String} (h : leefAttribute piece = some a) :
    piece = a.1.toList ++ '=' :: a.2.toList ∧ '=' ∉ a.1.toList := by
  obtain ⟨⟨key, value⟩, hsplit, rfl⟩ := Option.map_eq_some_iff.mp h
  obtain ⟨hpiece, hkey⟩ := splitFirst_eq_some hsplit
  simpa using ⟨hpiece, hkey⟩

theorem decodeLeef_eq {fields : List String} (hlength : fields.length = 5) (hfields : ∀ f ∈ fields, '|' ∉ f.toList)
    (rest : List Char) : decodeLeef (fields.flatMap (fun f => leefField f.toList) ++ rest) =
      ((rest.splitOn '\t').mapM leefAttribute).map fun attributes => { header := fields, attributes } := by
  have hread := readMany_leefHeader hfields rest
  have hback : (fields.map String.toList).map String.ofList = fields := by simp
  rw [hlength] at hread
  rw [decodeLeef, hread]
  simp only [Option.bind_eq_bind, Option.bind_some, hback]
  cases (rest.splitOn '\t').mapM leefAttribute <;> rfl

/-- Nothing that is read has the delimiter in it that ends it. -/
theorem decodeLeef_clean {record : Record} (h : decodeLeef text = some record) :
    (∀ f ∈ record.header, '|' ∉ f.toList) ∧
      ∀ a ∈ record.attributes, '=' ∉ a.1.toList ∧ '\t' ∉ a.1.toList ∧ '\t' ∉ a.2.toList := by
  simp only [decodeLeef, Option.bind_eq_bind, Option.bind_eq_some_iff, Prod.exists] at h
  obtain ⟨header, rest, hheader, attributes, hattributes, heq⟩ := h
  obtain rfl := Option.some.inj heq
  constructor
  · intro f hf
    obtain ⟨field, hfield, rfl⟩ := List.mem_map.mp hf
    rw [String.toList_ofList]
    exact readMany_forall (fun _ _ _ hsplit => (splitFirst_eq_some hsplit).2) hheader field hfield
  · intro a ha
    obtain ⟨piece, hpiece, hread⟩ := exists_of_mapM_eq_some hattributes a ha
    obtain ⟨hsplit, hkey⟩ := leefAttribute_eq_some hread
    have htab := not_mem_of_mem_splitOn hpiece
    rw [hsplit, List.mem_append, List.mem_cons, not_or, not_or] at htab
    exact ⟨hkey, htab.1, htab.2.2⟩

theorem singleLine_leef : SingleLine ((leefHeader e).flatMap (fun f => leefField f.toList) ++
    ['\t'].intercalate ((leefAttrs e devTime).map leefText)) ↔
      NoBreak e.eventType ∧ ∀ a ∈ leefAttrs e devTime, NoBreak a.1 ∧ NoBreak a.2 := by
  have hpipe : SingleLine ['|'] := by decide
  have htab : SingleLine ['\t'] := by decide
  have hfixed : ∀ f ∈ ["LEEF:2.0", "OCCP", "AgentControlPlane", "1.0"], NoBreak f := by
    decide
  have hfield (f : String) : SingleLine (leefField f.toList) ↔ NoBreak f := by
    rw [leefField, singleLine_append, NoBreak]
    exact and_iff_left hpipe
  have hheader : (∀ f ∈ leefHeader e, NoBreak f) ↔ NoBreak e.eventType := by
    constructor
    · intro h
      exact h _ (by simp [leefHeader])
    · intro htype f hf
      have hsplit : f ∈ ["LEEF:2.0", "OCCP", "AgentControlPlane", "1.0"] ++ [e.eventType] := hf
      rcases List.mem_append.mp hsplit with hf | hf
      · exact hfixed f hf
      · rw [List.mem_singleton.mp hf]
        exact htype
  rw [singleLine_append, singleLine_flatMap, singleLine_intercalate htab, List.forall_mem_map]
  have hattribute (a : String × String) : SingleLine (leefText a) ↔ NoBreak a.1 ∧ NoBreak a.2 := singleLine_keyValue
  simp only [hfield, hattribute, hheader]

/-- A LEEF text is unambiguous just when nothing in it is taken for a delimiter. -/
theorem leef_iff (numeral : Rat → Json.Numeral) (hdev : isoTimestamp e.timestamp = .ok devTime)
    (h : formatLeef e = .ok text) : Unambiguous numeral .leef e text ↔ LeefClean e devTime := by
  rw [formatLeef_eq hdev] at h
  obtain rfl := Except.ok.inj h
  unfold Unambiguous
  rw [singleLine_leef]
  constructor
  · rintro ⟨⟨htype, hattrs⟩, devTime', record, hdev', hrecord, hheader, hreads⟩
    obtain rfl : devTime = devTime' := Except.ok.inj (hdev.symm.trans hdev')
    obtain ⟨hfields, hfound⟩ := decodeLeef_clean hrecord
    rw [hheader] at hfields
    have hone := hreads.written_oneValue
    have hset (a) (ha : a ∈ leefAttributes e devTime) : a ∈ leefAttrs e devTime := (Dict.mem_setAll_iff hone a).mpr ha
    have hclean (a) (ha : a ∈ leefAttributes e devTime) := hfound a ((hreads.mem_iff a).mpr ha)
    refine ⟨⟨htype, hfields _ (by simp [leefHeader])⟩, fun a ha => ?_, fun a ha => ?_, hone⟩
    · exact ⟨(hattrs a (hset a ha)).1, (hclean a ha).1, (hclean a ha).2.1⟩
    · exact ⟨(hattrs a (hset a ha)).2, (hclean a ha).2.2⟩
  · rintro ⟨⟨htype, hpipe⟩, hkeys, hvalues, hone⟩
    have hset := Dict.mem_setAll_iff hone
    have hfields : ∀ f ∈ leefHeader e, '|' ∉ f.toList := by
      intro f hf
      have hsplit : f ∈ ["LEEF:2.0", "OCCP", "AgentControlPlane", "1.0"] ++ [e.eventType] := hf
      rcases List.mem_append.mp hsplit with hf | hf
      · exact (by decide : ∀ f ∈ ["LEEF:2.0", "OCCP", "AgentControlPlane", "1.0"], '|' ∉ f.toList) f hf
      · rw [List.mem_singleton.mp hf]
        exact hpipe
    have hpieces : (['\t'].intercalate ((leefAttrs e devTime).map leefText)).splitOn '\t' =
        (leefAttrs e devTime).map leefText := by
      refine List.splitOn_intercalate '\t' ?_ (by simpa using leefAttrs_ne_nil)
      intro piece hpiece
      obtain ⟨a, ha, rfl⟩ := List.mem_map.mp hpiece
      have ha' := (hset a).mp ha
      simp only [leefText, keyValue, List.mem_append, List.mem_cons, not_or]
      exact ⟨(hkeys a ha').2.2, by decide, (hvalues a ha').2⟩
    have hread : ((leefAttrs e devTime).map leefText).mapM leefAttribute = some (leefAttrs e devTime) :=
      mapM_map_eq_some fun a ha => leefAttribute_leefText (hkeys a ((hset a).mp ha)).2.1
    refine ⟨⟨htype, fun a ha => ?_⟩, devTime, ⟨leefHeader e, leefAttrs e devTime⟩, hdev, ?_, rfl, hset, ?_⟩
    · exact ⟨(hkeys a ((hset a).mp ha)).1, (hvalues a ((hset a).mp ha)).1⟩
    · rw [decodeLeef_eq rfl hfields, hpieces, hread]
      rfl
    · intro k v v' hv hv'
      exact hone k v v' ((hset _).mp hv) ((hset _).mp hv')

end Leef

/-! ## Syslog -/

section Syslog

variable {e : SIEMEvent} {timestamp : String} {text : List Char}

/-- Reading structured data uses some of the text up. -/
theorem afterStructuredData_length {state : SdState} {cs msg : List Char} (h : afterStructuredData state cs = some msg) :
    msg.length ≤ cs.length := by
  induction cs generalizing state with
  | nil =>
    cases state with
    | between =>
      obtain rfl : [] = msg := Option.some.inj h
      exact Nat.le_refl _
    | element => cases h
    | quoted => cases h
    | escaped => cases h
  | cons c cs ih =>
    rw [List.length_cons]
    cases state with
    | between =>
      rw [afterStructuredData] at h
      split_ifs at h
      · obtain rfl := Option.some.inj h
        omega
      · exact Nat.le_succ_of_le (ih h)
    | element =>
      rw [afterStructuredData] at h
      split_ifs at h <;> exact Nat.le_succ_of_le (ih h)
    | quoted =>
      rw [afterStructuredData] at h
      split_ifs at h <;> exact Nat.le_succ_of_le (ih h)
    | escaped => exact Nat.le_succ_of_le (ih h)

theorem structuredData_length {cs msg : List Char} (h : structuredData cs = some msg) : msg.length < cs.length := by
  cases cs with
  | nil => cases h
  | cons c cs =>
    rw [structuredData] at h
    rw [List.length_cons, Nat.lt_succ_iff]
    split_ifs at h
    · exact afterStructuredData_length h
    · exact afterStructuredData_length h

def syslogField (field : String) : List Char := field.toList ++ [' ']

theorem formatSyslog_eq (h : isoTimestamp e.timestamp = .ok timestamp) :
    formatSyslog e = .ok ((syslogHeader e timestamp).flatMap syslogField ++ e.name.toList) := by
  have hpri : '<' :: (toString (syslogFacility * 8 + e.severity.syslogSeverity)).toList ++ ">1 ".toList =
      syslogField (syslogPri e) := by
    unfold syslogPri
    cases e.severity <;> decide +kernel
  have hagent : " occp-agent OCCP - ".toList =
      ' ' :: syslogField "occp-agent" ++ syslogField "OCCP" ++ syslogField "-" := by
    decide +kernel
  unfold formatSyslog
  rw [h, syslogHeader]
  simp only [Lib.Except.ok_bind, hpri, hagent]
  simp [syslogField, pure, Except.pure]

/-- The fields of the header have no blanks. -/
theorem not_mem_syslogHeader (h : isoTimestamp e.timestamp = .ok timestamp) :
    ∀ f ∈ syslogHeader e timestamp, ' ' ∉ f.toList := by
  have hpri : ' ' ∉ (syslogPri e).toList := by
    unfold syslogPri
    cases e.severity <;> decide +kernel
  have htime : ' ' ∉ timestamp.toList := by
    intro hblank
    have hchar := isoTimestamp_chars h ' ' hblank
    revert hchar
    decide
  intro f hf
  simp only [syslogHeader, List.mem_cons, List.not_mem_nil, or_false] at hf
  rcases hf with rfl | rfl | rfl | rfl | rfl | rfl
  · exact hpri
  · exact htime
  · decide
  · decide
  · decide
  · exact not_mem_underscored e.eventType

theorem readMany_syslog (h : isoTimestamp e.timestamp = .ok timestamp) (rest : List Char) :
    readMany (splitFirst ' ') 6 ((syslogHeader e timestamp).flatMap syslogField ++ rest) =
      some ((syslogHeader e timestamp).map String.toList, rest) := by
  have hread := @readMany_flatMap _ _ (splitFirst ' ') (fun f => f ++ [' '])
    ((syslogHeader e timestamp).map String.toList) (fun f hf rest => by
      obtain ⟨field, hfield, rfl⟩ := List.mem_map.mp hf
      rw [List.append_assoc]
      exact splitFirst_append (not_mem_syslogHeader h field hfield) rest) rest
  rwa [List.length_map, List.flatMap_map] at hread

/-- What is read as the message of a syslog line is never all of it: its beginning is taken for structured data. -/
theorem not_syslog (numeral : Rat → Json.Numeral) (h : formatSyslog e = .ok text) :
    ¬ Unambiguous numeral .syslog e text := by
  rintro ⟨-, timestamp, htime, hdecode⟩
  rw [formatSyslog_eq htime] at h
  obtain rfl := Except.ok.inj h
  rw [decodeSyslog, readMany_syslog htime] at hdecode
  simp only [Option.bind_eq_bind, Option.bind_some] at hdecode
  obtain ⟨msg, hmsg, heq⟩ := Option.bind_eq_some_iff.mp hdecode
  have hname : String.ofList msg = e.name := congrArg Prod.snd (Option.some.inj heq)
  have hshorter := structuredData_length hmsg
  rw [← hname, String.toList_ofList] at hshorter
  exact Nat.lt_irrefl _ hshorter

/-- By the layout that the formatter documents, with no structured data, the fields and the message are
all there; only a line break can end the line too early. -/
theorem syslog_layout (h : isoTimestamp e.timestamp = .ok timestamp) (hformat : formatSyslog e = .ok text) :
    readMany (splitFirst ' ') 6 text = some ((syslogHeader e timestamp).map String.toList, e.name.toList) ∧
      (SingleLine text ↔ NoBreak (underscored e.eventType) ∧ NoBreak e.name) := by
  rw [formatSyslog_eq h] at hformat
  obtain rfl := Except.ok.inj hformat
  refine ⟨readMany_syslog h _, ?_⟩
  have hblank : SingleLine [' '] := by decide
  have hfield (f : String) : SingleLine (syslogField f) ↔ NoBreak f := by
    rw [syslogField, singleLine_append, NoBreak]
    exact and_iff_left hblank
  have hpri : NoBreak (syslogPri e) := by
    unfold syslogPri
    cases e.severity <;> decide +kernel
  have htime : NoBreak timestamp := by
    intro c hc
    have hchar := isoTimestamp_chars h c hc
    constructor
    · rintro rfl
      revert hchar
      decide
    · rintro rfl
      revert hchar
      decide
  have hfixed : ∀ f ∈ ["occp-agent", "OCCP", "-"], NoBreak f := by
    decide
  rw [singleLine_append, singleLine_flatMap]
  simp only [hfield]
  constructor
  · rintro ⟨hheader, hname⟩
    exact ⟨hheader _ (by simp [syslogHeader]), hname⟩
  · rintro ⟨htype, hname⟩
    refine ⟨?_, hname⟩
    intro f hf
    have hsplit : f ∈ [syslogPri e, timestamp] ++ ["occp-agent", "OCCP", "-"] ++ [underscored e.eventType] := hf
    rcases List.mem_append.mp hsplit with hf | hf
    · rcases List.mem_append.mp hf with hf | hf
      · rcases List.mem_pair.mp hf with rfl | rfl
        · exact hpri
        · exact htime
      · exact hfixed f hf
    · rw [List.mem_singleton.mp hf]
      exact htype

end Syslog

/-! ## JSON -/

section Json

variable {e : SIEMEvent} {text : List Char}

/-- The text of the dictionary is the text of its fields. -/
theorem formatJson_eq (numeral : Rat → Json.Numeral) :
    formatJson (fun q => String.ofList (numeral q).chars) e =
      .ok (Json.objectText ((jsonFields numeral e).map fun f => Json.dumpsString f.1 ++ ':' :: f.2.compact)) := by
  have hmetadata : Json.compactEntries (fun q => String.ofList (numeral q).chars) (e.metadata.map fun m => (m.1, .str m.2)) =
      e.metadata.map fun m => Json.dumpsString m.1 ++ ':' :: Json.dumpsString m.2 := by
    rw [Json.compactEntries_eq, List.map_map]
    rfl
  unfold formatJson
  simp only [SIEMEvent.toDict, Json.compact, Json.compactEntries, hmetadata, jsonFields, List.map_cons, List.map_nil,
    Json.Field.compact, Json.objectText, String.toList_ofList]

theorem singleLine_of_printable (h : ∀ c ∈ text, 32 ≤ c.toNat) : SingleLine text := by
  intro c hc
  have hle := h c hc
  constructor
  · rintro rfl
    exact absurd hle (by decide)
  · rintro rfl
    exact absurd hle (by decide)

/-- JSON is read back, whatever the event holds. -/
theorem json_unambiguous (numeral : Rat → Json.Numeral)
    (h : formatJson (fun q => String.ofList (numeral q).chars) e = .ok text) : Unambiguous numeral .json e text := by
  rw [formatJson_eq] at h
  obtain rfl := Except.ok.inj h
  exact ⟨singleLine_of_printable (Json.objectText_printable _), Json.readFields_text _⟩

end Json

/-! ## Every format -/

/-- What an event must hold so that its text can be read back. -/
def Clean (e : SIEMEvent) : SIEMFormat → Prop
  | .json => True
  | .cef => ∀ rt, isoTimestamp e.timestamp = .ok rt → CefClean e rt
  | .leef => ∀ devTime, isoTimestamp e.timestamp = .ok devTime → LeefClean e devTime
  | .syslog => False

theorem forall_time_iff {e : SIEMEvent} {time : String} (h : isoTimestamp e.timestamp = .ok time) (p : String → Prop) :
    (∀ t, isoTimestamp e.timestamp = .ok t → p t) ↔ p time := by
  constructor
  · intro hall
    exact hall time h
  · intro hp t ht
    obtain rfl : time = t := Except.ok.inj (h.symm.trans ht)
    exact hp

theorem unambiguous_iff (numeral : Rat → Json.Numeral) (format : SIEMFormat) (e : SIEMEvent) {text : List Char}
    (h : formatEvent (fun q => String.ofList (numeral q).chars) format e = .ok text) :
    Unambiguous numeral format e text ↔ Clean e format := by
  cases format with
  | json => exact iff_of_true (json_unambiguous numeral h) trivial
  | syslog => exact iff_of_false (not_syslog numeral h) id
  | cef =>
    obtain ⟨rt, hrt, -⟩ := Lib.Except.bind_eq_ok.mp h
    rw [cef_iff numeral hrt h, Clean, forall_time_iff hrt]
  | leef =>
    obtain ⟨devTime, hdev, -⟩ := Lib.Except.bind_eq_ok.mp h
    rw [leef_iff numeral hdev h, Clean, forall_time_iff hdev]

/-- Whole seconds, as Python writes them from 2001 to 2286. -/
def clockNumeral (q : Rat) : Json.Numeral where
  chars := digits 10 ⌊q⌋.toNat ++ ['.', '0']
  nonempty := by simp
  numeral := by
    have hdigit : ∀ d < 10, Json.isNumeral (Nat.digitChar d) = true := by decide
    intro c hc
    rcases List.mem_append.mp hc with hc | hc
    · obtain ⟨i, -, rfl⟩ := List.mem_map.mp hc
      exact hdigit _ (Nat.mod_lt _ (by omega))
    · rcases List.mem_pair.mp hc with rfl | rfl <;> decide

theorem noMetadata_nodup : (Dict.keys ([] : Dict String)).Nodup := List.nodup_nil

def plainEvent : SIEMEvent :=
  { eventType := "login", eventId := "1", timestamp := 1700000000, actor := "alice", metadata_nodup := noMetadata_nodup }

theorem unambiguous_iff_plain : Unambiguous clockNumeral .leef plainEvent
    ("LEEF:2.0|OCCP|AgentControlPlane|1.0|login|devTime=2023-11-14T22:13:20.000Z\tsev=informational\tsrc=occp\t" ++
      "outcome=success\tusrName=alice").toList ↔ Clean plainEvent .leef :=
  unambiguous_iff clockNumeral .leef plainEvent (by decide +kernel)

/-- An event type with a second record in it. -/
def twoRecords : SIEMEvent :=
  { eventType := "login\nCEF:0|OCCP", eventId := "1", timestamp := 1700000000, metadata_nodup := noMetadata_nodup }

/-- A description with an actor in it. -/
def forgedActor : SIEMEvent :=
  { eventType := "login", eventId := "1", timestamp := 1700000000, description := "x\tusrName=admin",
    metadata_nodup := noMetadata_nodup }

/-- An event type begins a second record, a description names an actor, and a syslog line lacks a part. -/
theorem values_inject :
    (∃ text, formatCef twoRecords = .ok text ∧ ¬ Unambiguous clockNumeral .cef twoRecords text) ∧
    (∃ text, formatLeef forgedActor = .ok text ∧ ¬ Unambiguous clockNumeral .leef forgedActor text) ∧
    ∃ text, formatSyslog plainEvent = .ok text ∧ ¬ Unambiguous clockNumeral .syslog plainEvent text := by
  have htime (e : SIEMEvent) (h : e.timestamp = 1700000000) :
      isoTimestamp e.timestamp = .ok "2023-11-14T22:13:20.000Z" := by
    rw [h]
    decide +kernel
  have hcef := formatCef_eq (htime twoRecords rfl)
  have hleef := formatLeef_eq (htime forgedActor rfl)
  refine ⟨⟨_, hcef, fun h => ?_⟩, ⟨_, hleef, fun h => ?_⟩, _, formatSyslog_eq (htime plainEvent rfl), ?_⟩
  · have hclean := (cef_iff clockNumeral (htime twoRecords rfl) hcef).mp h
    exact (hclean.eventType '\n' (by decide)).1 rfl
  · have hclean := (leef_iff clockNumeral (htime forgedActor rfl) hleef).mp h
    exact (hclean.values ("msg", "x\tusrName=admin") (by simp [leefAttributes, forgedActor])).2 (by decide)
  · exact not_syslog clockNumeral (formatSyslog_eq (htime plainEvent rfl))

end Occp.Security
