import Occp.Lib.Escapes
import Occp.Lib.Fields
import Occp.Observability.Metrics

/-!
# The text exposition format (`observability/metrics_collector.py`)

A reader for the format that the collector writes: comments, `TYPE` lines and samples, without time
stamps. A value is kept as it is written.
-/

namespace Occp.Metrics

open Lib

/-- In a label value `\`, `"` and line breaks are escaped. -/
def labelEscapes : Escapes where
  letter c := if c = '\\' then some '\\' else if c = '"' then some '"' else if c = '\n' then some 'n' else none
  char l := if l = '\\' then some '\\' else if l = '"' then some '"' else if l = 'n' then some '\n' else none
  letter_iff c l := by
    split_ifs <;> simp_all [eq_comm]
  slash := rfl

/-- In a help text quotes stand for themselves. -/
def helpEscapes : Escapes where
  letter c := if c = '\\' then some '\\' else if c = '\n' then some 'n' else none
  char l := if l = '\\' then some '\\' else if l = 'n' then some '\n' else none
  letter_iff c l := by
    split_ifs <;> simp_all [eq_comm]
  slash := rfl

inductive RawItem where
  | type (name : String) (kind : Kind)
  | sample (name : String) (labels : Labels) (value : String)
  deriving DecidableEq

def RawItem.name : RawItem → String
  | type name _ => name
  | sample name _ _ => name

def isBlank (c : Char) : Bool := c == ' ' || c == '\t'

def isLabelStart (c : Char) : Bool := c.isAlpha || c == '_'

def isLabelChar (c : Char) : Bool := isLabelStart c || c.isDigit

def isNameStart (c : Char) : Bool := isLabelStart c || c == ':'

def isNameChar (c : Char) : Bool := isNameStart c || c.isDigit

def isWord (first next : Char → Bool) (cs : List Char) : Bool := (cs.head?.map first).getD false && cs.all next

def ValidName (name : String) : Prop := isWord isNameStart isNameChar name.toList = true

def ValidLabel (name : String) : Prop := isWord isLabelStart isLabelChar name.toList = true

instance (name : String) : Decidable (ValidName name) := inferInstanceAs (Decidable (_ = true))

instance (name : String) : Decidable (ValidLabel name) := inferInstanceAs (Decidable (_ = true))

/-! ## One line -/

/-- The longest word that the text begins with. -/
def readWord (first next : Char → Bool) (cs : List Char) : Option (List Char × List Char) :=
  if isWord first next (cs.takeWhile next) then some (cs.takeWhile next, cs.dropWhile next) else none

/-- A label up to the quote that ends its value. -/
def readLabel (cs : List Char) : Option ((String × String) × List Char) :=
  (readWord isLabelStart isLabelChar cs).bind fun p =>
    match p.2 with
    | '=' :: '"' :: rest => (labelEscapes.read '"' rest).map fun q => ((String.ofList p.1, String.ofList q.1), q.2)
    | _ => none

/-- The labels up to the closing brace, at most `fuel` of them. -/
def readLabels : Nat → List Char → Option (Labels × List Char)
  | 0, _ => none
  | fuel + 1, cs =>
    (readLabel cs).bind fun p =>
      match p.2 with
      | ',' :: rest => (readLabels fuel rest).map fun q => (p.1 :: q.1, q.2)
      | '\x7d' :: rest => some ([p.1], rest)
      | _ => none

/-- A value after one blank, to the end of the line. -/
def readValue : List Char → Option String
  | ' ' :: value => if value = [] ∨ value.any isBlank then none else some (String.ofList value)
  | _ => none

def readSample (cs : List Char) : Option RawItem :=
  (readWord isNameStart isNameChar cs).bind fun p =>
    match p.2 with
    | '\x7b' :: rest =>
      (readLabels rest.length rest).bind fun q => (readValue q.2).map (.sample (String.ofList p.1) q.1)
    | rest => (readValue rest).map (.sample (String.ofList p.1) [])

def readKind (cs : List Char) : Option Kind :=
  [Kind.counter, .gauge, .histogram, .summary, .untyped].find? fun kind => kind.value.toList = cs

/-- A comment after its `#`; help is for people, but its escapes are looked at. -/
def readComment (cs : List Char) : Option (List RawItem) :=
  match splitFirst ' ' (cs.dropWhile isBlank) with
  | none => some []
  | some (word, rest) =>
    if word = "HELP".toList then
      (readWord isNameStart isNameChar rest).bind fun p =>
        match p.2 with
        | ' ' :: doc => if (helpEscapes.unescape doc).isSome then some [] else none
        | _ => none
    else if word = "TYPE".toList then
      (readWord isNameStart isNameChar rest).bind fun p =>
        match p.2 with
        | ' ' :: kind => (readKind kind).map fun kind => [.type (String.ofList p.1) kind]
        | _ => none
    else some []

def readLine (line : List Char) : Option (List RawItem) :=
  match line.dropWhile isBlank with
  | [] => some []
  | '#' :: rest => readComment rest
  | cs => (readSample cs).map ([·])

/-! ## The whole text -/

/-- The name that samples of a histogram add a suffix to. -/
def withoutSuffix (name : String) : Option String :=
  (["_bucket", "_count", "_sum"].find? fun s => s.toList.isSuffixOf name.toList).map fun s =>
    String.ofList (name.toList.take (name.length - s.length))

/-- The metric that a sample of this name belongs to. -/
def familyOf (typed : List (String × Kind)) (name : String) : String :=
  if name ∈ typed.map (·.1) then name
  else
    match withoutSuffix name with
    | some base => if (base, .histogram) ∈ typed then base else name
    | none => name

inductive Item where
  | type (name : String) (kind : Kind)
  | sample (family name : String) (labels : Labels) (value : String)
  deriving DecidableEq

def Item.raw : Item → RawItem
  | type name kind => .type name kind
  | sample _ name labels value => .sample name labels value

/-- Each sample belongs to a metric whose `TYPE` line came before. -/
def annotate : List (String × Kind) → List RawItem → List Item
  | _, [] => []
  | typed, .type name kind :: items => .type name kind :: annotate (typed ++ [(name, kind)]) items
  | typed, .sample name labels value :: items =>
    .sample (familyOf typed name) name labels value :: annotate typed items

/-- No name has two types, none has its type after a sample, and no series has two samples. -/
def Compatible : RawItem → RawItem → Prop
  | .type name _, .type name' _ => name ≠ name'
  | .sample name _ _, .type name' _ => name ≠ name'
  | .sample name labels _, .sample name' labels' _ => ¬ (name = name' ∧ labels.Perm labels')
  | .type _ _, .sample _ _ _ => True

instance (a b : RawItem) : Decidable (Compatible a b) :=
  match a, b with
  | .type name _, .type name' _ => inferInstanceAs (Decidable (name ≠ name'))
  | .sample name _ _, .type name' _ => inferInstanceAs (Decidable (name ≠ name'))
  | .sample name labels _, .sample name' labels' _ =>
    inferInstanceAs (Decidable (¬ (name = name' ∧ labels.Perm labels')))
  | .type _ _, .sample _ _ _ => isTrue trivial

def readLines (text : List Char) : Option (List RawItem) := ((text.splitOn '\n').mapM readLine).map List.flatten

def parse (text : List Char) : Option (List Item) :=
  (readLines text).bind fun items => if items.Pairwise Compatible then some (annotate [] items) else none

end Occp.Metrics
