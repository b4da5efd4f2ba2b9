import Occp.JsonLayouts
import Occp.Lib.Capture
import Occp.Text

/-!
# Execution directives (`adapters/openclaw_executor.py`)

An agent puts directives into its answer, as JSON in a fenced block. Two patterns find the block in the text.
-/

namespace Occp.Adapters

open Json
open Lib.Capture (Step Pattern)

def allowedDirectiveTools : List String :=
  ["brain.status", "brain.health", "filesystem.read", "filesystem.write", "filesystem.list", "http.get", "http.post",
    "wordpress.get_site_info", "wordpress.get_posts", "wordpress.get_pages", "wordpress.update_post", "node.list",
    "node.status", "node.exec"]

def allowedDirectiveRisk : List String := ["low", "medium", "high"]

def maxDirectivesPerResponse : Nat := 10

def maxDirectiveArgsBytes : Nat := 50 * 1024

/-! ## Patterns -/

def fence : List Char := "\x60\x60\x60".toList

def directivesKey : List Char := "\"directives\"".toList

def execTypeKey : List Char := "\"exec_type\"".toList

def text (w : List Char) : Step Char := .oneOf [w]

/-- An optional text; it is tried first. -/
def maybe (w : List Char) : Step Char := .oneOf [w, []]

def spaces : Step Char := .greedy Text.isSpace

def fencedJson : Pattern Char where
  before := [text fence, maybe "json".toList, spaces, maybe ['\n']]
  group := [text ['\x7b'], .lazily (· != '\x60'), .oneOf [directivesKey, execTypeKey], .lazily (· != '\x60'), text ['\x7d']]
  after := [spaces, maybe ['\n'], text fence]

def bareDirectives : Pattern Char where
  before := []
  group := [text ['\x7b'], spaces, text directivesKey, spaces, text [':'], spaces, text ['['], .lazily fun _ => true,
    text [']'], spaces, text ['\x7d']]
  after := []

/-! ## Directives -/

structure Directive where
  tool : String
  args : Dict Value
  risk : String

/-- `a or b`. -/
def orElse (a b : Option Value) : Option Value := if a.any Value.truthy then a else b

/-- A normalized directive, unless one of its checks fails. -/
def normalizeDict (F : Floats) (directive : Dict Value) : Option Directive :=
  match orElse (directive.get? "tool") (directive.get? "exec_type") with
  | some (.str tool) =>
    if tool = "" ∨ tool ∉ allowedDirectiveTools then none
    else
      match (directive.get? "args").getD (.dict []) with
      | .dict args =>
        if maxDirectiveArgsBytes < (dumps F.text (.dict args)).length then none
        else
          match (directive.get? "risk").getD (.str "low") with
          | .str risk => some ⟨tool, args, if risk ∈ allowedDirectiveRisk then risk else "low"⟩
          | _ => some ⟨tool, args, "low"⟩
      | _ => none
  | _ => none

def normalize (F : Floats) : Value → Option Directive
  | .dict directive => normalizeDict F directive
  | _ => none

def embeddedDict (parsed : Dict Value) : List Value :=
  match parsed.get? "directives" with
  | some (.list items) => items
  | _ => if (parsed.get? "exec_type").isSome ∨ (parsed.get? "tool").isSome then [.dict parsed] else []

/-- The raw directives in a candidate. -/
def embedded : Option Value → List Value
  | some (.dict parsed) => embeddedDict parsed
  | some (.list items) => items
  | _ => []

/-- The raw directives of the candidates; no more are read once there are twenty. -/
def gather (F : Floats) : List (List Char) → List Value → List Value
  | [], raw => raw
  | candidate :: candidates, raw =>
    let raw := raw ++ embedded (loads F candidate)
    if 2 * maxDirectivesPerResponse ≤ raw.length then raw else gather F candidates raw

/-- The fenced blocks of a text, or else its bare objects. -/
def candidates (response : List Char) : List (List Char) :=
  match fencedJson.findAll response with
  | [] => bareDirectives.findAll response
  | blocks => blocks

/-- `_parse_execution_directives`. -/
def parseExecutionDirectives (F : Floats) (response : List Char) : List Directive :=
  ((gather F (candidates response) []).take maxDirectivesPerResponse).filterMap (normalize F)

/-! ## The documented block -/

def Directive.value (d : Directive) : Value := .dict [("tool", .str d.tool), ("args", .dict d.args), ("risk", .str d.risk)]

/-- `json.dumps` of the object with the directives. -/
def payloadText (F : Floats) (ds : List Directive) : List Char :=
  dumps F.text (.dict [("directives", .list (ds.map Directive.value))])

def header : List Char := fence ++ "json\n".toList

def trailer : List Char := '\n' :: fence

def wireText (F : Floats) (ds : List Directive) : List Char := header ++ (payloadText F ds ++ trailer)

end Occp.Adapters
