import Occp.Policy.Models
import Occp.Re

/-!
# Guards that read the payload (`policy_engine/guards.py`)

A guard joins the strings of the payload to one text and searches that. `str` is what Python
writes for a value that is no string.
-/

namespace Occp.Policy

open Lib (Regex)
open Re (Pattern text among digits spaces anySpaces words ignoreCase)

/-! ## Helpers -/

/-- `_luhn_check`. Of what the card pattern matches, only the digits pass `str.isdigit`. -/
def luhnCheck (u : Unicode) (raw : List Char) : Bool :=
  let digits := raw.filterMap u.digit?
  if digits.length < 13 ∨ 19 < digits.length then false
  else
    let weighted := digits.reverse.zipIdx.map fun (d, i) =>
      if i % 2 = 1 then if 9 < d * 2 then d * 2 - 9 else d * 2 else d
    weighted.sum % 10 = 0

mutual

def flattenToText (str : Value → String) : Value → (depth : Nat) → List Char
  | .str s, depth => if 10 < depth then [] else s.toList
  | .dict entries, depth => if 10 < depth then [] else [' '].intercalate (flattenEntries str entries (depth + 1))
  | .list items, depth => if 10 < depth then [] else [' '].intercalate (flattenItems str items (depth + 1))
  | v, depth => if 10 < depth then [] else (str v).toList

def flattenEntries (str : Value → String) : List (String × Value) → Nat → List (List Char)
  | [], _ => []
  | (_, v) :: rest, depth => flattenToText str v depth :: flattenEntries str rest depth

def flattenItems (str : Value → String) : List Value → Nat → List (List Char)
  | [], _ => []
  | v :: rest, depth => flattenToText str v depth :: flattenItems str rest depth

end

/-! ## Personal data -/

namespace PIIGuard

def name : String := "pii_guard"

def email : Regex Char :=
  .sequence [.rep (fun c => c.isAlphanum || among "._%+-" c) 1 none, text "@",
    .rep (fun c => c.isAlphanum || among ".-" c) 1 none, text ".", .rep Char.isAlpha 2 none]

def phone (u : Unicode) : Regex Char :=
  let separator := .opt (.chars (among "-."))
  .sequence [.boundary, digits u 3, separator, digits u 3, separator, digits u 4, .boundary]

def ssn (u : Unicode) : Regex Char :=
  .sequence [.boundary, digits u 3, text "-", digits u 2, text "-", digits u 4, .boundary]

def cardStart (u : Unicode) : Regex Char :=
  .anyOf (.seq (text "4") (digits u 3))
    [.sequence [text "5", .chars (among "12345"), digits u 2], .sequence [text "3", .chars (among "47"), digits u 2],
      .seq (text "6") (.alt (text "011") (.seq (text "5") (digits u 2)))]

/-- What may stand between two groups of a card number. -/
def cardSeparator (c : Char) : Bool := Text.isSpace c || c == '-'

def creditCard (u : Unicode) : Regex Char :=
  let separator := .opt (.chars cardSeparator)
  .sequence [.boundary, cardStart u, separator, digits u 4, separator, digits u 4, separator,
    .rep (Re.isDigit u) 1 (some 4), .boundary]

def patterns (u : Unicode) : List (String × Regex Char) :=
  [("email", email), ("phone", phone u), ("ssn", ssn u), ("credit_card", creditCard u)]

def skipFields : List String := ["plan", "metadata", "capabilities"]

def filtered (payload : Dict Value) : Dict Value := payload.filter fun e => !skipFields.contains e.1

/-- The search finds the pattern, and a card number that passes the check. -/
def detects (u : Unicode) (text : List Char) (label : String) (pattern : Regex Char) : Bool :=
  match Re.search u pattern text with
  | none => false
  | some found => !(label == "credit_card" && !luhnCheck u found)

def matchedPatterns (u : Unicode) (str : Value → String) (payload : Dict Value) : List String :=
  let text := flattenToText str (.dict (filtered payload)) 0
  ((patterns u).filter fun (label, pattern) => detects u text label pattern).map (·.1)

def check (u : Unicode) (str : Value → String) (payload : Dict Value) : GuardResult :=
  let found := matchedPatterns u str payload
  let labels := ", ".intercalate found
  if found.isEmpty then { passed := true, guardName := name }
  else { passed := false, guardName := name, detail := s!"PII detected: {labels}" }

end PIIGuard

/-! ## Prompt injection -/

namespace PromptInjectionGuard

def name : String := "prompt_injection_guard"

/-- `SUSPICIOUS_PATTERNS`, compiled with `re.I`. -/
def suspiciousPatterns : List Pattern :=
  [ -- Classic instruction override
    ⟨"ignore\\s+(all\\s+)?previous\\s+instructions",
      .sequence [text "ignore", spaces, .opt (.seq (text "all") spaces), text "previous", spaces, text "instructions"]⟩,
    ⟨"disregard\\s+(all\\s+)?(prior|previous|above)\\s+",
      .sequence [text "disregard", spaces, .opt (.seq (text "all") spaces), words "prior" ["previous", "above"], spaces]⟩,
    ⟨"forget\\s+(all\\s+)?(your|the)\\s+(instructions|rules|guidelines)",
      .sequence [text "forget", spaces, .opt (.seq (text "all") spaces), words "your" ["the"], spaces,
        words "instructions" ["rules", "guidelines"]]⟩,
    -- Role manipulation
    ⟨"you\\s+are\\s+now\\s+(a|an)\\s+",
      .sequence [text "you", spaces, text "are", spaces, text "now", spaces, words "a" ["an"], spaces]⟩,
    ⟨"act\\s+as\\s+(if\\s+you\\s+are|a|an)\\s+",
      .sequence [text "act", spaces, text "as", spaces,
        .anyOf (.sequence [text "if", spaces, text "you", spaces, text "are"]) [text "a", text "an"], spaces]⟩,
    ⟨"pretend\\s+(to\\s+be|you\\s+are)\\s+",
      .sequence [text "pretend", spaces,
        .alt (.sequence [text "to", spaces, text "be"]) (.sequence [text "you", spaces, text "are"]), spaces]⟩,
    ⟨"roleplay\\s+as\\s+", .sequence [text "roleplay", spaces, text "as", spaces]⟩,
    -- System prompt / delimiter injection
    ⟨"system\\s*:\\s*", .sequence [text "system", anySpaces, text ":", anySpaces]⟩,
    ⟨"<\\s*/?system\\s*>",
      .sequence [text "<", anySpaces, .opt (text "/"), text "system", anySpaces, text ">"]⟩,
    ⟨"\\[INST\\]|\\[/INST\\]", words "[INST]" ["[/INST]"]⟩,
    ⟨"<<\\s*SYS\\s*>>|<<\\s*/SYS\\s*>>",
      .alt (.sequence [text "<<", anySpaces, text "SYS", anySpaces, text ">>"])
        (.sequence [text "<<", anySpaces, text "/SYS", anySpaces, text ">>"])⟩,
    ⟨"###\\s*(system|instruction|human|assistant)\\s*:",
      .sequence [text "###", anySpaces, words "system" ["instruction", "human", "assistant"], anySpaces, text ":"]⟩,
    -- Authority claims
    ⟨"ADMIN\\s+OVERRIDE", .sequence [text "ADMIN", spaces, text "OVERRIDE"]⟩,
    ⟨"(developer|maintenance|debug)\\s+mode\\s*(enabled|activated|on)",
      .sequence [words "developer" ["maintenance", "debug"], spaces, text "mode", anySpaces,
        words "enabled" ["activated", "on"]]⟩,
    ⟨"emergency\\s+protocol", .sequence [text "emergency", spaces, text "protocol"]⟩,
    -- DAN / jailbreak patterns
    ⟨"\\bDAN\\b.*\\b(mode|enabled|jailbreak)",
      .sequence [.boundary, text "DAN", .boundary, .rep Re.dot 0 none, .boundary,
        words "mode" ["enabled", "jailbreak"]]⟩,
    ⟨"do\\s+anything\\s+now", .sequence [text "do", spaces, text "anything", spaces, text "now"]⟩,
    ⟨"jailbreak(ed|ing)?", .seq (text "jailbreak") (.opt (words "ed" ["ing"]))⟩,
    -- Output manipulation
    ⟨"begin\\s+your\\s+(response|answer|output)\\s+with",
      .sequence [text "begin", spaces, text "your", spaces, words "response" ["answer", "output"], spaces, text "with"]⟩,
    ⟨"respond\\s+(only\\s+)?with\\s+(yes|no|true|false|ok)",
      .sequence [text "respond", spaces, .opt (.seq (text "only") spaces), text "with", spaces,
        words "yes" ["no", "true", "false", "ok"]]⟩,
    -- Encoded / obfuscated injection
    ⟨"base64\\s*:\\s*[A-Za-z0-9+/=]\x7b20,\x7d",
      .sequence [text "base64", anySpaces, text ":", anySpaces,
        .rep (fun c => c.isAlphanum || among "+/=" c) 20 none]⟩,
    ⟨"hex\\s*:\\s*[0-9a-fA-F]\x7b20,\x7d",
      .sequence [text "hex", anySpaces, text ":", anySpaces, .rep (among "0123456789abcdefABCDEF") 20 none]⟩]

def brainTrustedFields : List String := ["metadata", "plan", "capabilities"]

def isBrainDispatched (payload : Dict Value) : Bool :=
  match payload.get? "metadata" with
  | some (.dict metadata) =>
    match Dict.get? metadata "brain_dispatched" with
    | some (.bool true) => true
    | _ => false
  | _ => false

def filtered (payload : Dict Value) : Dict Value :=
  if isBrainDispatched payload then payload.filter fun e => !brainTrustedFields.contains e.1 else payload

def matchedPatterns (u : Unicode) (str : Value → String) (payload : Dict Value) : List String :=
  let text := flattenToText str (.dict (filtered payload)) 0
  (suspiciousPatterns.filter fun p => (Re.search u (ignoreCase p.regex) text).isSome).map (·.source)

def check (u : Unicode) (str : Value → String) (payload : Dict Value) : GuardResult :=
  let found := matchedPatterns u str payload
  if found.isEmpty then { passed := true, guardName := name }
  else { passed := false, guardName := name, detail := s!"Prompt injection patterns detected ({found.length})" }

end PromptInjectionGuard

end Occp.Policy
