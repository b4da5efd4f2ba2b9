import Mathlib.Data.Rat.Floor
import Occp.JsonFields
import Occp.Lib.Calendar
import Occp.Lib.Digests
import Occp.Security.SiemEvents
import Occp.Text

/-!
# Bills of materials (`security/sbom.py`)

The hash of a bill and its JSON text, and what is left of the bill when the text is loaded.
-/

namespace Occp.Security

open Json
open Lib (CollisionFree)

/-! ## Components -/

inductive LicenseRisk where
  | permissive
  | weakCopyleft
  | strongCopyleft
  | proprietary
  | unknown
  deriving DecidableEq

def LicenseRisk.value : LicenseRisk → String
  | permissive => "permissive"
  | weakCopyleft => "weak-copyleft"
  | strongCopyleft => "strong-copyleft"
  | proprietary => "proprietary"
  | unknown => "unknown"

def permissiveLicenses : List String :=
  ["MIT", "Apache-2.0", "BSD-2-Clause", "BSD-3-Clause", "ISC", "Unlicense", "CC0-1.0", "0BSD", "BlueOak-1.0.0"]

def weakCopyleftLicenses : List String :=
  ["LGPL-2.1-only", "LGPL-3.0-only", "MPL-2.0", "LGPL-2.1-or-later", "LGPL-3.0-or-later", "EPL-2.0"]

def strongCopyleftLicenses : List String :=
  ["GPL-2.0-only", "GPL-3.0-only", "AGPL-3.0-only", "GPL-2.0-or-later", "GPL-3.0-or-later", "AGPL-3.0-or-later"]

def classifyLicense (spdxId : String) : LicenseRisk :=
  if spdxId ∈ permissiveLicenses then .permissive
  else if spdxId ∈ weakCopyleftLicenses then .weakCopyleft
  else if spdxId ∈ strongCopyleftLicenses then .strongCopyleft
  else if String.ofList (Text.lower spdxId.toList) ∈ ["proprietary", "commercial"] then .proprietary
  else .unknown

structure SBOMComponent where
  name : String
  version : String
  purl : String := ""
  componentType : String := "library"
  licenseId : String := ""
  licenseRisk : String := ""
  hashSha256 : String := ""
  author : String := ""
  description : String := ""
  deriving DecidableEq

namespace SBOMComponent

/-- `__post_init__`. -/
def init (c : SBOMComponent) : SBOMComponent :=
  if c.licenseRisk = "" ∧ c.licenseId ≠ "" then { c with licenseRisk := (classifyLicense c.licenseId).value } else c

/-- `to_dict`. -/
def fields (c : SBOMComponent) : Dict Value :=
  [("type", .str c.componentType), ("name", .str c.name), ("version", .str c.version)] ++
    entryIf "purl" c.purl (.str c.purl) ++
    entryIf "licenses" c.licenseId (.list [.dict [("license", .dict [("id", .str c.licenseId)])]]) ++
    entryIf "hashes" c.hashSha256 (.list [.dict [("alg", .str "SHA-256"), ("content", .str c.hashSha256)]]) ++
    entryIf "author" c.author (.str c.author) ++
    entryIf "description" c.description (.str c.description)

/-- The id of the first license. -/
def readLicense : Value → Option String
  | .list (.dict first :: _) => (fieldOr readDict first "license" []).bind fun license => fieldOr readStr license "id" ""
  | .list _ => some ""
  | _ => none

/-- The content of the first hash of the algorithm. -/
def readHash : List Value → Option String
  | [] => some ""
  | .dict h :: rest =>
    match Dict.get? h "alg" with
    | some (.str alg) => if alg = "SHA-256" then fieldOr readStr h "content" "" else readHash rest
    | _ => readHash rest
  | _ :: _ => none

def readItems : Value → Option (List Value)
  | .list items => some items
  | _ => none

/-- `from_dict`. -/
def ofValue (v : Value) : Option SBOMComponent := do
  let data ← readDict v
  let licenseId ← fieldOr readLicense data "licenses" ""
  let hashSha256 ← fieldOr (fun v => (readItems v).bind readHash) data "hashes" ""
  let name ← requiredField readStr data "name"
  let version ← requiredField readStr data "version"
  let purl ← fieldOr readStr data "purl" ""
  let componentType ← fieldOr readStr data "type" "library"
  let author ← fieldOr readStr data "author" ""
  let description ← fieldOr readStr data "description" ""
  pure (init { name, version, purl, componentType, licenseId, hashSha256, author, description })

end SBOMComponent

/-! ## Times -/

/-- `%Y-%m-%dT%H:%M:%SZ`. -/
def strftime (second : Int) : String :=
  let date := civil (second / 86400)
  let time := (second % 86400).toNat
  String.ofList ((toString date.1).toList ++ ('-' :: digits 2 date.2.1 ++ '-' :: digits 2 date.2.2 ++
    'T' :: digits 2 (time / 3600) ++ ':' :: digits 2 (time / 60 % 60) ++ ':' :: digits 2 (time % 60) ++ ['Z']))

example : strftime 1700000000 = "2023-11-14T22:13:20Z" := by decide +kernel

/-- `time_t` and the year of a `struct tm` are bounded. -/
def Representable (second : Int) : Prop :=
  (-2 ^ 63 ≤ second ∧ second < 2 ^ 63) ∧ -2 ^ 31 ≤ (civil (second / 86400)).1 - 1900 ∧
    (civil (second / 86400)).1 - 1900 < 2 ^ 31

instance (second : Int) : Decidable (Representable second) := inferInstanceAs (Decidable (_ ∧ _))

/-- The text of `time.gmtime(t)`. -/
def timestamp (t : Rat) : Except PyError String :=
  if Representable ⌊t⌋ then .ok (strftime ⌊t⌋)
  else if -2 ^ 63 ≤ ⌊t⌋ ∧ ⌊t⌋ < 2 ^ 63 then .error (.other "OSError" "[Errno 75] Value too large for defined data type")
  else .error (.other "OverflowError" "timestamp out of range for platform time_t")

/-! ## Bills -/

/-- A bill, as `__post_init__` leaves it. -/
structure SBOM where
  skillId : String
  skillVersion : String
  components : List SBOMComponent := []
  serialNumber : String
  generatedAt : Rat
  toolName : String := "occp-sbom"
  toolVersion : String := "1.0.0"
  serialNumber_ne : serialNumber ≠ "" := by decide

namespace SBOM

def newSerial (sha256 : String → String) (content : String) : String :=
  "urn:uuid:" ++ String.ofList ((sha256 content).toList.take 32)

theorem newSerial_ne (sha256 : String → String) (content : String) : newSerial sha256 content ≠ "" := by
  intro h
  have hlist := congrArg String.toList h
  rw [newSerial, String.toList_append] at hlist
  exact List.cons_ne_nil _ _ hlist

variable (sha256 : String → String) (F : Floats)

/-- `SBOM(...)`: no time is the present, and no serial number a new one. -/
def new (now : Rat) (skillId skillVersion : String) (components : List SBOMComponent) (serialNumber : String) (generatedAt : Rat)
    (toolName toolVersion : String) : SBOM :=
  let generatedAt := if generatedAt = 0 then now else generatedAt
  if h : serialNumber = "" then
    { skillId, skillVersion, components, generatedAt, toolName, toolVersion
      serialNumber := newSerial sha256 s!"{skillId}:{skillVersion}:{F.text generatedAt}"
      serialNumber_ne := newSerial_ne sha256 _ }
  else { skillId, skillVersion, components, generatedAt, toolName, toolVersion, serialNumber, serialNumber_ne := h }

def toolFields (s : SBOM) : Dict Value := [("name", .str s.toolName), ("version", .str s.toolVersion)]

def skillFields (s : SBOM) : Dict Value :=
  [("type", .str "application"), ("name", .str s.skillId), ("version", .str s.skillVersion)]

def metadataFields (s : SBOM) (timestamp : String) : Dict Value :=
  [("timestamp", .str timestamp), ("tools", .list [.dict s.toolFields]), ("component", .dict s.skillFields)]

/-- The dictionary of `to_cyclonedx`, under a timestamp. -/
def fields (s : SBOM) (timestamp : String) : Dict Value :=
  [("bomFormat", .str "CycloneDX"), ("specVersion", .str "1.5"), ("serialNumber", .str s.serialNumber), ("version", .int 1),
    ("metadata", .dict (s.metadataFields timestamp)), ("components", .list (s.components.map fun c => .dict c.fields))]

def toCyclonedx (s : SBOM) : Except PyError Value := (timestamp s.generatedAt).map fun text => .dict (s.fields text)

/-- `to_json`. -/
def toJson (s : SBOM) : Except PyError (List Char) := s.toCyclonedx.map fun v => write (.indent 2) F.text 0 (sortKeys v)

def contentHash (s : SBOM) : Except PyError String :=
  s.toCyclonedx.map fun v => sha256 (String.ofList (compact F.text (sortKeys v)))

def readTool : Value → Option (Dict Value)
  | .list [] => some []
  | .list (tool :: _) => readDict tool
  | _ => none

/-- `from_cyclonedx`. -/
def ofCyclonedx (now : Rat) (v : Value) : Option SBOM := do
  let data ← readDict v
  let metadata ← fieldOr readDict data "metadata" []
  let component ← fieldOr readDict metadata "component" []
  let tool ← fieldOr readTool metadata "tools" []
  let skillId ← fieldOr readStr component "name" ""
  let skillVersion ← fieldOr readStr component "version" ""
  let serialNumber ← fieldOr readStr data "serialNumber" ""
  let toolName ← fieldOr readStr tool "name" "occp-sbom"
  let toolVersion ← fieldOr readStr tool "version" "1.0.0"
  let items ← fieldOr SBOMComponent.readItems data "components" []
  let components ← items.mapM SBOMComponent.ofValue
  pure { new sha256 F now skillId skillVersion [] serialNumber 0 toolName toolVersion with components }

/-- `from_json`. -/
def ofJson (now : Rat) (text : List Char) : Option SBOM := (loads F text).bind (ofCyclonedx sha256 F now)

end SBOM

/-! ## What is loaded -/

namespace SBOMComponent

/-- The risk is computed again from the license. -/
def reclassified (c : SBOMComponent) : SBOMComponent := init { c with licenseRisk := "" }

theorem fields_reclassified (c : SBOMComponent) : c.reclassified.fields = c.fields := by
  unfold reclassified init
  split <;> rfl

theorem nodup_fields (c : SBOMComponent) : c.fields.keys.Nodup := by
  have hkeys : c.fields.keys.Sublist ["type", "name", "version", "purl", "licenses", "hashes", "author", "description"] := by
    simp only [fields, Dict.keys, List.map_append]
    exact (((((List.Sublist.refl ["type", "name", "version"]).append (keys_entryIf _ _ _)).append (keys_entryIf _ _ _)).append
      (keys_entryIf _ _ _)).append (keys_entryIf _ _ _)).append (keys_entryIf _ _ _)
  exact hkeys.nodup (by decide)

/-- A text that is left out where it is empty is read as empty. -/
theorem fieldOr_of_get? {data : Dict Value} {key text : String} {v : Value} (read : Value → Option String)
    (hget : data.get? key = if text = "" then none else some v) (hread : read v = some text) :
    fieldOr read data key "" = some text := by
  rw [fieldOr, hget]
  by_cases htext : text = ""
  · rw [if_pos htext, htext]
  · rw [if_neg htext]
    exact hread

theorem readLicense_sorted (license : String) :
    readLicense (sortKeys (.list [.dict [("license", .dict [("id", .str license)])]])) = some license := by
  simp only [sortKeys_list, List.map_cons, List.map_nil, sortKeys_dict]
  rfl

theorem readHash_sorted (hash : String) :
    (readItems (sortKeys (.list [.dict [("alg", .str "SHA-256"), ("content", .str hash)]]))).bind readHash = some hash := by
  have hnodup : (Dict.keys [("alg", Value.str "SHA-256"), ("content", .str hash)]).Nodup := by simp [Dict.keys]
  simp only [sortKeys_list, List.map_cons, List.map_nil, sortKeys_dict, readItems, Option.bind_some, readHash,
    get?_sortKeys hnodup, fieldOr_sorted _ hnodup]
  rfl

theorem ofValue_fields (c : SBOMComponent) : ofValue (sortKeys (.dict c.fields)) = some c.reclassified := by
  have hpurl : fieldOr (fun v => readStr (sortKeys v)) c.fields "purl" "" = some c.purl :=
    fieldOr_of_get? (v := .str c.purl) _ (by simp [fields, get?_append, get?_entryIf, Dict.get?]) rfl
  have hlicense : fieldOr (fun v => readLicense (sortKeys v)) c.fields "licenses" "" = some c.licenseId :=
    fieldOr_of_get? _ (by simp [fields, get?_append, get?_entryIf, Dict.get?]) (readLicense_sorted c.licenseId)
  have hhash : fieldOr (fun v => (readItems (sortKeys v)).bind readHash) c.fields "hashes" "" = some c.hashSha256 :=
    fieldOr_of_get? _ (by simp [fields, get?_append, get?_entryIf, Dict.get?]) (readHash_sorted c.hashSha256)
  have hauthor : fieldOr (fun v => readStr (sortKeys v)) c.fields "author" "" = some c.author :=
    fieldOr_of_get? (v := .str c.author) _ (by simp [fields, get?_append, get?_entryIf, Dict.get?]) rfl
  have hdescription : fieldOr (fun v => readStr (sortKeys v)) c.fields "description" "" = some c.description :=
    fieldOr_of_get? (v := .str c.description) _ (by simp [fields, get?_append, get?_entryIf, Dict.get?]) rfl
  unfold ofValue
  rw [sortKeys_dict]
  simp only [readDict, Option.bind_eq_bind, Option.bind_some, fieldOr_sorted _ c.nodup_fields,
    requiredField_sorted _ c.nodup_fields, hpurl, hlicense, hhash, hauthor, hdescription]
  simp [fieldOr, requiredField, fields, Dict.get?, readStr, sortKeys, reclassified]

theorem readable_fields {F : Floats} (c : SBOMComponent) : Readable F (.dict c.fields) := by
  refine .dict c.nodup_fields ?_
  have hlicense : Readable F (.list [.dict [("license", .dict [("id", .str c.licenseId)])]]) :=
    .list (List.forall_mem_singleton.mpr (.dict (by simp [Dict.keys]) (List.forall_mem_singleton.mpr
      (.dict (by simp [Dict.keys]) (List.forall_mem_singleton.mpr (.str _))))))
  have hhash : Readable F (.list [.dict [("alg", .str "SHA-256"), ("content", .str c.hashSha256)]]) :=
    .list (List.forall_mem_singleton.mpr (.dict (by simp [Dict.keys]) (List.forall_mem_cons.mpr ⟨.str _,
      List.forall_mem_singleton.mpr (.str _)⟩)))
  simp only [fields, List.forall_mem_append, List.forall_mem_cons]
  exact ⟨⟨⟨⟨⟨⟨.str _, .str _, .str _, List.forall_mem_nil _⟩, forall_mem_entryIf _ (.str _)⟩, forall_mem_entryIf _ hlicense⟩,
    forall_mem_entryIf _ hhash⟩, forall_mem_entryIf _ (.str _)⟩, forall_mem_entryIf _ (.str _)⟩

end SBOMComponent

/-! ## Times and their texts -/

theorem civil_eq (days : Int) :
    civil days = (Lib.yearOfDay days + if (Lib.dateOfYear (Lib.dayOfYear days)).1 ≤ 2 then 1 else 0,
      Lib.dateOfYear (Lib.dayOfYear days)) :=
  rfl

theorem civil_injective {days days' : Int} (h : civil days = civil days') : days = days' := by
  rw [civil_eq, civil_eq, Prod.mk.injEq] at h
  obtain ⟨hyear, hdate⟩ := h
  rw [hdate] at hyear
  have hday := Lib.eq_of_dateOfYear (Lib.dayOfYear_lt days) (Lib.dayOfYear_lt days') hdate
  exact Lib.eq_of_yearOfDay (by omega) hday

theorem ofDigitChars_digits : ∀ n < 100, Nat.ofDigitChars 10 (digits 2 n) 0 = n := by decide +kernel

theorem digits_injective {n n' : Nat} (hn : n < 100) (hn' : n' < 100) (h : digits 2 n = digits 2 n') : n = n' := by
  rw [← ofDigitChars_digits n hn, h, ofDigitChars_digits n' hn']

theorem digits_two (n : Nat) : digits 2 n = [Nat.digitChar (n / 10 % 10), Nat.digitChar (n % 10)] := by
  simp [digits, List.range_succ]

/-- A timestamp tells the second. -/
theorem strftime_injective {second second' : Int} (h : strftime second = strftime second') : second = second' := by
  have hlist := congrArg String.toList h
  simp only [strftime, String.toList_ofList] at hlist
  obtain ⟨hyear, hrest⟩ := List.append_inj' hlist (by simp [digits_two])
  simp only [digits_two, List.cons_append, List.nil_append, List.cons.injEq, true_and, and_true] at hrest
  obtain ⟨hmonth, hmonth', hday, hday', hhour, hhour', hminute, hminute', hsecond, hsecond'⟩ := hrest
  -- Two digits are the digits of one number.
  have hpair {n n' : Nat} (hn : n < 100) (hn' : n' < 100) (h : Nat.digitChar (n / 10 % 10) = Nat.digitChar (n' / 10 % 10))
      (h' : Nat.digitChar (n % 10) = Nat.digitChar (n' % 10)) : n = n' :=
    digits_injective hn hn' (by rw [digits_two, digits_two, h, h'])
  have hbounds (days : Int) := Lib.dateOfYear_bounds (Lib.dayOfYear_lt days)
  have hdate : civil (second / 86400) = civil (second' / 86400) := by
    refine Prod.ext ?_ (Prod.ext (hpair ?_ ?_ hmonth hmonth') (hpair ?_ ?_ hday hday'))
    · rw [← integer_toList (civil (second / 86400)).1, hyear, integer_toList]
    · exact lt_of_le_of_lt (hbounds _).1 (by decide)
    · exact lt_of_le_of_lt (hbounds _).1 (by decide)
    · exact lt_of_le_of_lt (hbounds _).2 (by decide)
    · exact lt_of_le_of_lt (hbounds _).2 (by decide)
  have hdays := civil_injective hdate
  have hhours := hpair (by omega) (by omega) hhour hhour'
  have hminutes := hpair (by omega) (by omega) hminute hminute'
  have hseconds := hpair (by omega) (by omega) hsecond hsecond'
  omega

theorem timestamp_eq_ok_iff {t : Rat} {text : String} :
    timestamp t = .ok text ↔ Representable ⌊t⌋ ∧ text = strftime ⌊t⌋ := by
  unfold timestamp
  split
  · next h => simp [h, eq_comm]
  · next h => split <;> simp [h]

/-! ## Loading -/

namespace SBOM

variable {sha256 : String → String} {F : Floats} {now : Rat} {s : SBOM}

/-- The bill that is loaded from the text: it is as old as the loading. -/
def loaded (now : Rat) (s : SBOM) : SBOM :=
  { s with components := s.components.map SBOMComponent.reclassified, generatedAt := now }

theorem fields_loaded (timestamp : String) : (s.loaded now).fields timestamp = s.fields timestamp := by
  have hcomponents : ((s.components.map SBOMComponent.reclassified).map fun c => Value.dict c.fields) =
      s.components.map fun c => .dict c.fields := by
    rw [List.map_map]
    exact List.map_congr_left fun c _ => congrArg Value.dict c.fields_reclassified
  simp only [fields, loaded, hcomponents]
  rfl

theorem nodup_toolFields (s : SBOM) : s.toolFields.keys.Nodup := by simp [toolFields, Dict.keys]

theorem nodup_skillFields (s : SBOM) : s.skillFields.keys.Nodup := by simp [skillFields, Dict.keys]

theorem nodup_metadataFields (s : SBOM) (timestamp : String) : (s.metadataFields timestamp).keys.Nodup := by
  simp [metadataFields, Dict.keys]

theorem nodup_fields (s : SBOM) (timestamp : String) : (s.fields timestamp).keys.Nodup := by simp [fields, Dict.keys]

theorem readable_fields (timestamp : String) : Readable F (.dict (s.fields timestamp)) := by
  have htool : Readable F (.dict s.toolFields) := by
    refine .dict s.nodup_toolFields ?_
    simp only [toolFields, List.forall_mem_cons]
    exact ⟨.str _, .str _, nofun⟩
  have hskill : Readable F (.dict s.skillFields) := by
    refine .dict s.nodup_skillFields ?_
    simp only [skillFields, List.forall_mem_cons]
    exact ⟨.str _, .str _, .str _, nofun⟩
  have hmetadata : Readable F (.dict (s.metadataFields timestamp)) := by
    refine .dict (s.nodup_metadataFields timestamp) ?_
    simp only [metadataFields, List.forall_mem_cons]
    exact ⟨.str _, .list (List.forall_mem_singleton.mpr htool), hskill, nofun⟩
  have hcomponents : Readable F (.list (s.components.map fun c => .dict c.fields)) :=
    .list (List.forall_mem_map.mpr fun c _ => c.readable_fields)
  refine .dict (s.nodup_fields timestamp) ?_
  simp only [fields, List.forall_mem_cons]
  exact ⟨.str _, .str _, .str _, .int 1, hmetadata, hcomponents, nofun⟩

theorem ofCyclonedx_fields (timestamp : String) :
    ofCyclonedx sha256 F now (sortKeys (.dict (s.fields timestamp))) = some (s.loaded now) := by
  have hcomponents : (((s.components.map fun c => Value.dict c.fields).map sortKeys).mapM SBOMComponent.ofValue) =
      some (s.components.map SBOMComponent.reclassified) := by
    rw [List.mapM_map, List.mapM_map]
    exact Lib.mapM_eq_some_map fun c _ => c.ofValue_fields
  have hdata {α : Type} (read : Value → Option α) (key : String) (default : α) :=
    fieldOr_sorted read (s.nodup_fields timestamp) key default
  have hmetadata {α : Type} (read : Value → Option α) (key : String) (default : α) :=
    fieldOr_sorted read (s.nodup_metadataFields timestamp) key default
  have hskill {α : Type} (read : Value → Option α) (key : String) (default : α) :=
    fieldOr_sorted read s.nodup_skillFields key default
  have htool {α : Type} (read : Value → Option α) (key : String) (default : α) :=
    fieldOr_sorted read s.nodup_toolFields key default
  have hitems : fieldOr (fun v => SBOMComponent.readItems (sortKeys v)) (s.fields timestamp) "components" [] =
      some ((s.components.map fun c => Value.dict c.fields).map sortKeys) := by
    simp [fieldOr, fields, Dict.get?, sortKeys_list, SBOMComponent.readItems]
  have hmeta : fieldOr (fun v => readDict (sortKeys v)) (s.fields timestamp) "metadata" [] =
      some ((s.metadataFields timestamp).sorted.map fun e => (e.1, sortKeys e.2)) := by
    simp [fieldOr, fields, Dict.get?, sortKeys_dict, readDict]
  have hcomponent : fieldOr (fun v => readDict (sortKeys v)) (s.metadataFields timestamp) "component" [] =
      some (s.skillFields.sorted.map fun e => (e.1, sortKeys e.2)) := by
    simp [fieldOr, metadataFields, Dict.get?, sortKeys_dict, readDict]
  have htools : fieldOr (fun v => readTool (sortKeys v)) (s.metadataFields timestamp) "tools" [] =
      some (s.toolFields.sorted.map fun e => (e.1, sortKeys e.2)) := by
    simp [fieldOr, metadataFields, Dict.get?, sortKeys_list, sortKeys_dict, readTool, readDict]
  unfold ofCyclonedx
  rw [sortKeys_dict]
  simp only [readDict_dict, Option.bind_eq_bind, Option.bind_some, hdata, hmeta, hmetadata, hcomponent, htools, hskill, htool, hitems,
    hcomponents]
  simp [fieldOr, fields, skillFields, toolFields, Dict.get?, sortKeys, new, s.serialNumber_ne, loaded]

theorem ofJson_toJson {text : List Char} (h : s.toJson F = .ok text) : ofJson sha256 F now text = some (s.loaded now) := by
  unfold toJson toCyclonedx at h
  cases htime : timestamp s.generatedAt with
  | error e =>
    rw [htime] at h
    cases h
  | ok time =>
    rw [htime] at h
    cases h
    rw [ofJson, loads_write _ (readable_sortKeys (readable_fields time)), Option.bind_some, ofCyclonedx_fields]

/-! ## The hash -/

/-- The text that is hashed, under a timestamp. -/
def canonical (F : Floats) (s : SBOM) (timestamp : String) : String :=
  String.ofList (compact F.text (sortKeys (.dict (s.fields timestamp))))

theorem contentHash_eq_ok_iff {hash : String} :
    s.contentHash sha256 F = .ok hash ↔
      ∃ time, timestamp s.generatedAt = .ok time ∧ hash = sha256 (s.canonical F time) := by
  unfold contentHash toCyclonedx
  cases timestamp s.generatedAt with
  | error e => simp [Except.map]
  | ok time => simp [Except.map, canonical, eq_comm]

theorem canonical_loaded (timestamp : String) : (s.loaded now).canonical F timestamp = s.canonical F timestamp := by
  rw [canonical, canonical, fields_loaded]

theorem canonical_injective {time time' : String} (h : s.canonical F time = s.canonical F time') : time = time' := by
  have hloads (time : String) : loads F (compact F.text (sortKeys (.dict (s.fields time)))) =
      some (sortKeys (.dict (s.fields time))) := by
    rw [← write_compact _ 0]
    exact loads_write .compact (readable_sortKeys (readable_fields time))
  have htext := String.ofList_injective h
  have hvalue : sortKeys (.dict (s.fields time)) = sortKeys (.dict (s.fields time')) := by
    rw [← Option.some.injEq, ← hloads time, htext, hloads time']
  rw [sortKeys_dict, sortKeys_dict, Value.dict.injEq] at hvalue
  have hmetadata := congrArg (Dict.get? · "metadata") hvalue
  simp only [get?_sortKeys (s.nodup_fields _)] at hmetadata
  simp only [fields, Dict.get?, String.reduceEq, if_false, if_true, Option.map_some, Option.some.injEq] at hmetadata
  rw [sortKeys_dict, sortKeys_dict, Value.dict.injEq] at hmetadata
  have htime := congrArg (Dict.get? · "timestamp") hmetadata
  simp only [get?_sortKeys (s.nodup_metadataFields _)] at htime
  simpa [metadataFields, Dict.get?, sortKeys] using htime

/-- The bill that is loaded from the text of a bill has its hash. -/
def Survives (sha256 : String → String) (F : Floats) (now : Rat) (s : SBOM) : Prop :=
  ∃ text s' hash, s.toJson F = .ok text ∧ ofJson sha256 F now text = some s' ∧ s.contentHash sha256 F = .ok hash ∧
    s'.contentHash sha256 F = .ok hash

theorem survives_iff_timestamp
    (hfree : ∀ time time', timestamp s.generatedAt = .ok time → timestamp now = .ok time' →
      CollisionFree sha256 [s.canonical F time, s.canonical F time']) :
    Survives sha256 F now s ↔ ∃ time, timestamp s.generatedAt = .ok time ∧ timestamp now = .ok time := by
  constructor
  · rintro ⟨text, s', hash, htext, hload, hhash, hhash'⟩
    rw [ofJson_toJson htext] at hload
    cases hload
    obtain ⟨time, htime, heq⟩ := contentHash_eq_ok_iff.mp hhash
    obtain ⟨time', htime', heq'⟩ := contentHash_eq_ok_iff.mp hhash'
    rw [canonical_loaded] at heq'
    have hcanonical := hfree time time' htime htime' _ List.mem_cons_self _ (List.mem_cons_of_mem _ List.mem_cons_self)
      (heq.symm.trans heq')
    have hsame := canonical_injective hcanonical
    rw [← hsame] at htime'
    exact ⟨time, htime, htime'⟩
  · rintro ⟨time, htime, htime'⟩
    obtain ⟨text, htext⟩ : ∃ text, s.toJson F = .ok text := ⟨_, by rw [toJson, toCyclonedx, htime]; rfl⟩
    refine ⟨text, s.loaded now, sha256 (s.canonical F time), htext, ofJson_toJson htext, ?_, ?_⟩
    · exact contentHash_eq_ok_iff.mpr ⟨time, htime, rfl⟩
    · exact contentHash_eq_ok_iff.mpr ⟨time, htime', by rw [canonical_loaded]⟩

def requestsBill : SBOM where
  skillId := "deploy"
  skillVersion := "1.0"
  components := [SBOMComponent.init { name := "requests", version := "2.31", licenseId := "MIT" }]
  serialNumber := "urn:uuid:3e671687395b4751"
  generatedAt := 1700000000

theorem requestsBill_timestamp {time : String} (h : timestamp requestsBill.generatedAt = .ok time) :
    time = "2023-11-14T22:13:20Z" := by
  have htime : timestamp requestsBill.generatedAt = .ok "2023-11-14T22:13:20Z" := by decide +kernel
  rw [htime] at h
  cases h
  rfl

theorem later_timestamp {time : String} (h : timestamp 1700000005 = .ok time) : time = "2023-11-14T22:13:25Z" := by
  have htime : timestamp 1700000005 = .ok "2023-11-14T22:13:25Z" := by decide +kernel
  rw [htime] at h
  cases h
  rfl

theorem requestsBill_collisionFree :
    ∀ time time', timestamp requestsBill.generatedAt = .ok time → timestamp 1700000005 = .ok time' →
      CollisionFree Lib.sampleDigest [requestsBill.canonical wholeFloats time, requestsBill.canonical wholeFloats time'] := by
  intro time time' h h'
  have hapart : Lib.sampleDigest (requestsBill.canonical wholeFloats "2023-11-14T22:13:20Z") ≠
      Lib.sampleDigest (requestsBill.canonical wholeFloats "2023-11-14T22:13:25Z") := by decide +kernel
  rw [requestsBill_timestamp h, later_timestamp h']
  intro x hx y hy heq
  simp only [List.mem_cons, List.not_mem_nil, or_false] at hx hy
  rcases hx with rfl | rfl <;> rcases hy with rfl | rfl
  · rfl
  · exact absurd heq hapart
  · exact absurd heq.symm hapart
  · rfl

/-- **The hash survives just when the text is loaded in the second in which the bill was made.** -/
theorem survives_iff (sha256 : String → String) (F : Floats) (now : Rat) (s : SBOM)
    (hfree : ∀ time time', timestamp s.generatedAt = .ok time → timestamp now = .ok time' →
      CollisionFree sha256 [s.canonical F time, s.canonical F time']) :
    Survives sha256 F now s ↔ Representable ⌊s.generatedAt⌋ ∧ ⌊now⌋ = ⌊s.generatedAt⌋ := by
  rw [survives_iff_timestamp hfree]
  simp only [timestamp_eq_ok_iff]
  constructor
  · rintro ⟨time, ⟨hmade, heq⟩, -, heq'⟩
    exact ⟨hmade, strftime_injective (heq'.symm.trans heq)⟩
  · rintro ⟨hmade, hsecond⟩
    exact ⟨_, ⟨hmade, rfl⟩, by rwa [hsecond], by rw [hsecond]⟩

theorem survives_iff_requestsBill :
    Survives Lib.sampleDigest wholeFloats 1700000005 requestsBill ↔
      Representable ⌊requestsBill.generatedAt⌋ ∧ ⌊(1700000005 : Rat)⌋ = ⌊requestsBill.generatedAt⌋ :=
  survives_iff Lib.sampleDigest wholeFloats 1700000005 requestsBill requestsBill_collisionFree

/-- Five seconds later the loaded bill has another hash. -/
theorem loaded_later_has_other_hash :
    ¬ ∀ (sha256 : String → String) (F : Floats) (now : Rat) (s : SBOM),
      (∀ time time', timestamp s.generatedAt = .ok time → timestamp now = .ok time' →
        CollisionFree sha256 [s.canonical F time, s.canonical F time']) → Survives sha256 F now s := by
  intro h
  have hsurvives := h Lib.sampleDigest wholeFloats 1700000005 requestsBill requestsBill_collisionFree
  obtain ⟨time, hmade, hlater⟩ := (survives_iff_timestamp requestsBill_collisionFree).mp hsurvives
  rw [requestsBill_timestamp hmade] at hlater
  exact absurd (later_timestamp hlater) (by decide)

end SBOM

end Occp.Security
