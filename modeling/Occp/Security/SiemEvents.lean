import Occp.Errors
import Occp.Json
import Occp.Lib.Rounding
import Mathlib.Data.Rat.Floor

/-!
# Formats of security events (`security/siem_export.py`)

A formatted event is a list of characters. What `repr` makes of a float is a parameter of the JSON
format.
-/

namespace Occp.Security

inductive SIEMFormat where
  | cef | leef | json | syslog
  deriving DecidableEq

inductive SIEMSeverity where
  | informational | low | medium | high | critical
  deriving DecidableEq

namespace SIEMSeverity

def value : SIEMSeverity → String
  | informational => "informational"
  | low => "low"
  | medium => "medium"
  | high => "high"
  | critical => "critical"

def cefSeverity : SIEMSeverity → Nat
  | informational => 0
  | low => 3
  | medium => 5
  | high => 7
  | critical => 10

def syslogSeverity : SIEMSeverity → Nat
  | informational => 6
  | low => 5
  | medium => 4
  | high => 3
  | critical => 2

end SIEMSeverity

def syslogFacility : Nat := 1

/-- An event; no key of its metadata is there twice. -/
structure SIEMEvent where
  eventType : String
  eventId : String
  timestamp : Rat
  source : String := "occp"
  severity : SIEMSeverity := .informational
  description : String := ""
  actor : String := ""
  target : String := ""
  outcome : String := "success"
  metadata : Dict String := []
  metadata_nodup : metadata.keys.Nodup := by decide

/-! ## Times -/

def digits (width n : Nat) : List Char :=
  (List.range width).reverse.map fun i => Nat.digitChar (n / 10 ^ i % 10)

/-- Year, month and day, so many days after the first day of 1970. -/
def civil (days : Int) : Int × Nat × Nat :=
  let z := days + 719468
  let era := z / 146097
  let doe := (z % 146097).toNat
  let yoe := (doe - doe / 1460 + doe / 36524 - doe / 146096) / 365
  let doy := doe - (365 * yoe + yoe / 4 - yoe / 100)
  let mp := (5 * doy + 2) / 153
  let day := doy - (153 * mp + 2) / 5 + 1
  let month := if mp < 10 then mp + 3 else mp - 9
  (yoe + era * 400 + if month ≤ 2 then 1 else 0, month, day)

/-- `%Y-%m-%dT%H:%M:%S.%f` without the last three digits. -/
def timeText (year month day time millis : Nat) : List Char :=
  ((digits 4 year).dropWhile (· = '0') ++ '-' :: digits 2 month ++ '-' :: digits 2 day) ++
    ('T' :: digits 2 (time / 3600) ++ ':' :: digits 2 (time / 60 % 60) ++ ':' :: digits 2 (time % 60)) ++
      '.' :: digits 3 millis

/-- `_iso_timestamp`: to milliseconds, in UTC; only the years from 1 to 9999 are there. -/
def isoTimestamp (ts : Rat) : Except PyError String :=
  let micros := Lib.roundHalfEven (ts * 10 ^ 6)
  let second := micros / 1000000
  let date := civil (second / 86400)
  if date.1 < 1 ∨ 9999 < date.1 then .error (.valueError s!"year {date.1} is out of range")
  else
    let millis := (micros % 1000000).toNat / 1000
    .ok (String.ofList (timeText date.1.toNat date.2.1 date.2.2 (second % 86400).toNat millis ++ ['Z']))

example : isoTimestamp 1700000000 = .ok "2023-11-14T22:13:20.000Z" := by decide +kernel

def isTimeChar (c : Char) : Bool := c.isDigit || c == '-' || c == ':' || c == 'T' || c == '.' || c == 'Z'

theorem isTimeChar_of_mem_digits {width n : Nat} {c : Char} (h : c ∈ digits width n) : isTimeChar c = true := by
  have hdigit : ∀ d < 10, isTimeChar (Nat.digitChar d) = true := by decide
  obtain ⟨i, -, rfl⟩ := List.mem_map.mp h
  exact hdigit _ (Nat.mod_lt _ (by omega))

theorem isTimeChar_of_mem_timeText {year month day time millis : Nat} {c : Char}
    (h : c ∈ timeText year month day time millis) : isTimeChar c = true := by
  have hyear (h : c ∈ (digits 4 year).dropWhile (· = '0')) : isTimeChar c = true :=
    isTimeChar_of_mem_digits ((List.dropWhile_sublist _).mem h)
  simp only [timeText, List.mem_append, List.mem_cons] at h
  rcases h with (((h | rfl | h) | rfl | h) | ((rfl | h) | rfl | h) | rfl | h) | rfl | h
  · exact hyear h
  all_goals first
    | exact isTimeChar_of_mem_digits h
    | decide

theorem isoTimestamp_chars {ts : Rat} {text : String} (h : isoTimestamp ts = .ok text) :
    ∀ c ∈ text.toList, isTimeChar c = true := by
  simp only [isoTimestamp] at h
  split at h
  · cases h
  cases h
  intro c hc
  rw [String.toList_ofList, List.mem_append] at hc
  rcases hc with hc | hc
  · exact isTimeChar_of_mem_timeText hc
  · rw [List.mem_singleton.mp hc]
    decide

/-! ## Escapes -/

/-- `value.replace(old, new)` for a single character. -/
def replaceChar (old : Char) (new : List Char) (cs : List Char) : List Char :=
  cs.flatMap fun c => if c = old then new else [c]

def cefEscapeHeader (value : String) : List Char :=
  replaceChar '|' ['\\', '|'] (replaceChar '\\' ['\\', '\\'] value.toList)

def cefEscapeExt (value : String) : List Char :=
  replaceChar '\r' ['\\', 'r'] (replaceChar '\n' ['\\', 'n']
    (replaceChar '=' ['\\', '='] (replaceChar '\\' ['\\', '\\'] value.toList)))

/-- `text.replace(" ", "_")`. -/
def underscored (text : String) : String := String.ofList (replaceChar ' ' ['_'] text.toList)

namespace SIEMEvent

variable (e : SIEMEvent)

def toDict : Dict Value :=
  [("eventId", .str e.eventId), ("timestamp", .float e.timestamp), ("source", .str e.source),
    ("eventType", .str e.eventType), ("severity", .str e.severity.value), ("description", .str e.description),
    ("actor", .str e.actor), ("target", .str e.target), ("outcome", .str e.outcome),
    ("metadata", .dict (e.metadata.map fun m => (m.1, .str m.2)))]

/-- `event.description or event.event_type`. -/
def name : String := if e.description = "" then e.eventType else e.description

end SIEMEvent

/-! ## Formatters -/

def keyValue (key : String) (value : List Char) : List Char := key.toList ++ '=' :: value

def formatJson (floatText : Rat → String) (e : SIEMEvent) : Except PyError (List Char) :=
  .ok (Json.compact floatText (.dict e.toDict))

def formatCef (e : SIEMEvent) : Except PyError (List Char) := do
  let rt ← isoTimestamp e.timestamp
  let extension :=
    [keyValue "rt" rt.toList, keyValue "src" (cefEscapeExt e.source), keyValue "act" (cefEscapeExt e.eventType),
      keyValue "outcome" (cefEscapeExt e.outcome)] ++
    (if e.actor = "" then [] else [keyValue "suser" (cefEscapeExt e.actor)]) ++
    (if e.target = "" then [] else [keyValue "target" (cefEscapeExt e.target)]) ++
    e.metadata.map fun m => keyValue (underscored m.1) (cefEscapeExt m.2)
  return "CEF:0|OCCP|AgentControlPlane|1.0".toList ++ '|' :: cefEscapeHeader e.eventType ++
    '|' :: cefEscapeHeader e.name ++ '|' :: (toString e.severity.cefSeverity).toList ++
    '|' :: [' '].intercalate extension

def formatLeef (e : SIEMEvent) : Except PyError (List Char) := do
  let devTime ← isoTimestamp e.timestamp
  let attrs : Dict String :=
    [("devTime", devTime), ("sev", e.severity.value), ("src", e.source), ("outcome", e.outcome)]
  let attrs := if e.actor = "" then attrs else attrs.set "usrName" e.actor
  let attrs := if e.target = "" then attrs else attrs.set "resource" e.target
  let attrs := if e.description = "" then attrs else attrs.set "msg" e.description
  let attrs := attrs.setAll (e.metadata.map fun m => (underscored m.1, m.2))
  return "LEEF:2.0|OCCP|AgentControlPlane|1.0".toList ++ '|' :: e.eventType.toList ++
    '|' :: ['\t'].intercalate (attrs.map fun a => keyValue a.1 a.2.toList)

def formatSyslog (e : SIEMEvent) : Except PyError (List Char) := do
  let timestamp ← isoTimestamp e.timestamp
  let pri := syslogFacility * 8 + e.severity.syslogSeverity
  return '<' :: (toString pri).toList ++ ">1 ".toList ++ timestamp.toList ++ " occp-agent OCCP - ".toList ++
    (underscored e.eventType).toList ++ ' ' :: e.name.toList

def formatEvent (floatText : Rat → String) (format : SIEMFormat) (e : SIEMEvent) : Except PyError (List Char) :=
  match format with
  | .json => formatJson floatText e
  | .cef => formatCef e
  | .leef => formatLeef e
  | .syslog => formatSyslog e

end Occp.Security
