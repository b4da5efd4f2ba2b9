import Occp.JsonText
import Occp.Lib.Escapes
import Occp.Lib.Fields
import Occp.Security.SiemEvents

/-!
# Reading security events back (`security/siem_export.py`)

A reader for each format by the rules of the format, and what the formatter is to write.
-/

namespace Occp.Security

open Lib

/-! ## CEF -/

/-- In the header `\` and `|` are escaped. -/
def cefHeaderEscapes : Escapes where
  letter c := if c = '\\' then some '\\' else if c = '|' then some '|' else none
  char l := if l = '\\' then some '\\' else if l = '|' then some '|' else none
  letter_iff c l := by
    split_ifs <;> simp_all [eq_comm]
  slash := rfl

/-- In a value `\`, `=` and line breaks are escaped. -/
def cefExtEscapes : Escapes where
  letter c :=
    if c = '\\' then some '\\' else if c = '=' then some '=' else if c = '\n' then some 'n'
    else if c = '\r' then some 'r' else none
  char l :=
    if l = '\\' then some '\\' else if l = '=' then some '=' else if l = 'n' then some '\n'
    else if l = 'r' then some '\r' else none
  letter_iff c l := by
    split_ifs <;> simp_all [eq_comm]
  slash := rfl

theorem cefEscapeHeader_eq (value : String) : cefEscapeHeader value = cefHeaderEscapes.escape value.toList := by
  unfold cefEscapeHeader replaceChar Escapes.escape
  rw [List.flatMap_assoc]
  congr 1
  funext c
  by_cases hslash : c = '\\'
  · rw [hslash]
    rfl
  · by_cases hpipe : c = '|' <;> simp [Escapes.escapeChar, cefHeaderEscapes, hslash, hpipe]

theorem cefEscapeExt_eq (value : String) : cefEscapeExt value = cefExtEscapes.escape value.toList := by
  unfold cefEscapeExt replaceChar Escapes.escape
  rw [List.flatMap_assoc, List.flatMap_assoc, List.flatMap_assoc]
  congr 1
  funext c
  by_cases hslash : c = '\\'
  · rw [hslash]
    rfl
  by_cases hequals : c = '='
  · rw [hequals]
    rfl
  by_cases hn : c = '\n'
  · rw [hn]
    rfl
  · by_cases hr : c = '\r' <;> simp [Escapes.escapeChar, cefExtEscapes, hslash, hequals, hn, hr]

structure Record where
  header : List String
  attributes : List (String × String)
  deriving DecidableEq

def isKey (key : String) : Bool := key.toList.all fun c => c ≠ ' ' && c ≠ '=' && c ≠ '\\'

/-- The values of an extension, the first of which is that of this key: a value ends where the next key begins. -/
def cefValues : Nat → List Char → List Char → Option (List (String × String))
  | 0, _, _ => none
  | fuel + 1, key, cs =>
    match Escapes.cut '=' cs with
    | none => (cefExtEscapes.unescape cs).map fun v => [(String.ofList key, String.ofList v)]
    | some (raw, rest) => do
      let (before, next) ← splitLast ' ' raw
      let v ← cefExtEscapes.unescape before
      let more ← cefValues fuel next rest
      return (String.ofList key, String.ofList v) :: more

def cefExtension (cs : List Char) : Option (List (String × String)) := do
  let (key, rest) ← Escapes.cut '=' cs
  let attributes ← cefValues (rest.length + 1) key rest
  if attributes.all fun a => isKey a.1 then some attributes else none

def decodeCef (cs : List Char) : Option Record := do
  let (header, rest) ← readMany (cefHeaderEscapes.read '|') 7 cs
  let attributes ← cefExtension rest
  return { header := header.map String.ofList, attributes }

/-! ## LEEF -/

def leefAttribute (cs : List Char) : Option (String × String) :=
  (splitFirst '=' cs).map fun p => (String.ofList p.1, String.ofList p.2)

/-- Nothing is escaped. -/
def decodeLeef (cs : List Char) : Option Record := do
  let (header, rest) ← readMany (splitFirst '|') 5 cs
  let attributes ← (rest.splitOn '\t').mapM leefAttribute
  return { header := header.map String.ofList, attributes }

/-! ## Syslog -/

inductive SdState where
  | between | element | quoted | escaped

/-- The message after what is left of the structured data (RFC 5424, 6.3). -/
def afterStructuredData : SdState → List Char → Option (List Char)
  | .between, [] => some []
  | .between, c :: cs =>
    if c = ' ' then some cs else if c = '[' then afterStructuredData .element cs else none
  | .element, c :: cs =>
    if c = ']' then afterStructuredData .between cs
    else if c = '"' then afterStructuredData .quoted cs else afterStructuredData .element cs
  | .quoted, c :: cs =>
    if c = '\\' then afterStructuredData .escaped cs
    else if c = '"' then afterStructuredData .element cs else afterStructuredData .quoted cs
  | .escaped, _ :: cs => afterStructuredData .quoted cs
  | _, [] => none

/-- Structured data are there, or a `-` for them. -/
def structuredData : List Char → Option (List Char)
  | [] => none
  | c :: cs =>
    if c = '-' then (if cs.head? = some '[' then none else afterStructuredData .between cs)
    else if c = '[' then afterStructuredData .element cs
    else none

/-- The header of RFC 5424, then structured data, then the message. -/
def decodeSyslog (cs : List Char) : Option (List String × String) := do
  let (header, rest) ← readMany (splitFirst ' ') 6 cs
  let msg ← structuredData rest
  return (header.map String.ofList, String.ofList msg)

end Occp.Security
