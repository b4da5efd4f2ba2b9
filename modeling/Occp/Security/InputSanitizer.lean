import Occp.Lib.Removal
import Occp.Re

/-!
# Sanitizing input (`security/input_sanitizer.py`)

Invisible characters are stripped first, then long white space, and NUL last. White space that is too short to be
stripped can stand next to other white space once the NUL between them is gone.
-/

namespace Occp.Security

open Lib (Regex)
open Lib.Regex (LongRun dropRuns shortRun)
open Re (text spaces anySpaces words ignoreCase)
open Text (isSpace)

structure SanitizationResult where
  safe : Bool
  original : List Char
  sanitized : List Char
  threatsDetected : List String
  riskScore : Rat

structure InputSanitizer where
  strict : Bool := false
  totalChecked : Nat := 0
  totalBlocked : Nat := 0

namespace InputSanitizer

/-- Prompt injection, with the score of each. -/
def injectionPatterns : List (String × Regex Char × Rat) :=
  [("system_override",
      ignoreCase (.sequence [words "ignore" ["forget", "disregard"], spaces, .opt (.sequence [text "all", spaces]),
        words "previous" ["prior", "above"], spaces, words "instructions" ["rules", "prompts"]]), 95 / 100),
    ("role_hijack",
      ignoreCase (.sequence [text "you", spaces, text "are", spaces, words "now" ["actually", "really"], spaces,
        words "a" ["an", "the"], spaces]), 80 / 100),
    ("system_prompt_leak",
      ignoreCase (.sequence [words "reveal" ["show", "print", "output", "repeat"], spaces,
        .opt (.sequence [text "your", spaces]), .opt (.sequence [text "system", spaces]),
        words "prompt" ["instructions", "rules"]]), 85 / 100),
    ("delimiter_injection",
      ignoreCase (.anyOf (.sequence [text "\x60\x60\x60", anySpaces, text "system", .boundary])
        [text "<|system|>", text "[SYSTEM]", text "[INST]"]), 90 / 100),
    ("encoding_bypass",
      ignoreCase (.sequence [words "base64" ["rot13", "hex"], anySpaces, words "decode" ["encode"], anySpaces,
        text ":"]), 70 / 100),
    ("jailbreak_dan",
      ignoreCase (.sequence [.boundary, text "DAN", .boundary, .rep Re.dot 0 none,
        words "mode" ["anything", "now", "enable"]]), 95 / 100),
    ("identity_override",
      ignoreCase (.sequence [.anyOf (.sequence [text "from", spaces, text "now", spaces, text "on"]) [text "henceforth"],
        spaces, .anyOf (.sequence [text "you", spaces, text "are"])
          [.sequence [text "act", spaces, text "as"], text "pretend"]]), 85 / 100),
    ("tool_abuse",
      ignoreCase (.sequence [words "execute" ["run", "call"], spaces,
        .anyOf (text "bash") [text "shell", text "exec", text "system", .sequence [text "rm", spaces, text "-rf"]]]),
      90 / 100)]

def isInvisible (c : Char) : Bool := [0x200B, 0x200C, 0x200D, 0x2060, 0xFEFF].contains c.toNat

def isNull (c : Char) : Bool := c.toNat = 0

/-- What is stripped, and not blocked. -/
def stripPatterns : List (String × Regex Char) :=
  [("invisible_chars", .chars isInvisible), ("excessive_whitespace", .rep isSpace 50 none),
    ("null_bytes", .chars isNull)]

def maxInputLength : Nat := 10000

/-- The text so far, with what has been found in it. -/
structure Scan where
  text : List Char
  threats : List String := []
  risk : Rat := 0

def Scan.report (s : Scan) (threat : String) (score : Rat) : Scan :=
  { s with threats := s.threats ++ [threat], risk := max s.risk score }

def checkLength (text : List Char) : Scan :=
  if maxInputLength < text.length then Scan.report { text := text.take maxInputLength } "truncated_overlength" (3 / 10)
  else { text := text }

variable (u : Unicode)

def strip (s : Scan) (e : String × Regex Char) : Scan :=
  if (Re.search u e.2 s.text).isSome then
    Scan.report { s with text := Regex.remove u.isWord e.2 s.text } s!"stripped_{e.1}" (2 / 10)
  else s

def detect (s : Scan) (e : String × Regex Char × Rat) : Scan :=
  if (Re.search u e.2.1 s.text).isSome then s.report e.1 e.2.2 else s

def sanitize (z : InputSanitizer) (text : List Char) : SanitizationResult × InputSanitizer :=
  let taken := checkLength text
  let s := injectionPatterns.foldl (detect u) (stripPatterns.foldl (strip u) taken)
  let safe : Bool := if z.strict then s.risk < 5 / 10 else s.risk < 7 / 10
  let result : SanitizationResult :=
    { safe := safe, original := taken.text, sanitized := s.text, threatsDetected := s.threats, riskScore := s.risk }
  (result, { z with
    totalChecked := z.totalChecked + 1, totalBlocked := if safe then z.totalBlocked else z.totalBlocked + 1 })

/-! ## What is left -/

variable {u : Unicode}

@[simp] theorem report_text (s : Scan) (threat : String) (score : Rat) : (s.report threat score).text = s.text := rfl

theorem checkLength_text (text : List Char) : (checkLength text).text = text.take maxInputLength := by
  unfold checkLength
  split
  · rfl
  · next h => exact (List.take_of_length_le (Nat.not_lt.mp h)).symm

theorem strip_text (s : Scan) (e : String × Regex Char) : (strip u s e).text = Regex.remove u.isWord e.2 s.text := by
  unfold strip
  split
  · rfl
  · next h => exact (Lib.Regex.remove_of_search (by simpa [Re.search] using h)).symm

theorem detect_text (entries : List (String × Regex Char × Rat)) (s : Scan) :
    (entries.foldl (detect u) s).text = s.text := by
  induction entries generalizing s with
  | nil => rfl
  | cons e entries ih =>
    rw [List.foldl_cons, ih]
    unfold detect
    split <;> rfl

def stripped (text : List Char) : List Char :=
  (dropRuns isSpace 50 [] ((text.take maxInputLength).filter (!isInvisible ·))).filter (!isNull ·)

theorem sanitized_eq (z : InputSanitizer) (text : List Char) : (z.sanitize u text).1.sanitized = stripped text := by
  have hspaces : 0 < 50 := by decide
  unfold sanitize stripped
  dsimp only
  rw [detect_text]
  simp only [stripPatterns, List.foldl_cons, List.foldl_nil, strip_text, checkLength_text,
    Lib.Regex.remove_chars, Lib.Regex.remove_rep hspaces]

/-- Nothing that is stripped is there. -/
def Clean (u : Unicode) (text : List Char) : Prop := ∀ e ∈ stripPatterns, Re.search u e.2 text = none

theorem search_eq_none_iff {r : Regex Char} {text : List Char} :
    Re.search u r text = none ↔ ¬ (Regex.search u.isWord r text).isSome := by
  simp [Re.search]

theorem clean_iff {text : List Char} :
    Clean u text ↔ (∀ c ∈ text, isInvisible c = false) ∧ ¬ LongRun isSpace 50 text ∧ ∀ c ∈ text, isNull c = false := by
  simp only [Clean, stripPatterns, List.forall_mem_cons, search_eq_none_iff, Lib.Regex.search_chars_isSome_iff,
    Lib.Regex.search_rep_isSome_iff]
  simp

theorem isSpace_of_isNull {c : Char} (h : isNull c = true) : isSpace c = false := by
  have hc : c.toNat = 0 := by simpa [isNull] using h
  simp [isSpace, hc]

theorem length_stripped_le (text : List Char) : (stripped text).length ≤ maxInputLength := by
  have hdrop : (dropRuns isSpace 50 [] ((text.take maxInputLength).filter (!isInvisible ·))).length ≤
      ((text.take maxInputLength).filter (!isInvisible ·)).length := by
    simpa using Lib.Regex.length_dropRuns_le (p := isSpace) (n := 50) [] ((text.take maxInputLength).filter (!isInvisible ·))
  have hfirst : ((text.take maxInputLength).filter (!isInvisible ·)).length ≤ (text.take maxInputLength).length :=
    List.length_filter_le _ _
  have hlast : (stripped text).length ≤
      (dropRuns isSpace 50 [] ((text.take maxInputLength).filter (!isInvisible ·))).length := List.length_filter_le _ _
  have htake := List.length_take_le maxInputLength text
  omega

theorem mem_stripped {text : List Char} {c : Char} (h : c ∈ stripped text) : isInvisible c = false ∧ isNull c = false := by
  obtain ⟨hmem, hnull⟩ := List.mem_filter.mp h
  have hfirst := (Lib.Regex.mem_of_mem_dropRuns hmem).resolve_left List.not_mem_nil
  exact ⟨by simpa using (List.mem_filter.mp hfirst).2, by simpa using hnull⟩

/-- Clean text of an accepted length is not changed. -/
theorem stripped_of_clean {text : List Char} (hclean : Clean u text) (hlen : text.length ≤ maxInputLength) :
    stripped text = text := by
  obtain ⟨hvisible, hruns, hnull⟩ := clean_iff.mp hclean
  have hsearch : Regex.search u.isWord (.rep isSpace 50 none) text = none := by
    rw [← Option.not_isSome_iff_eq_none, Lib.Regex.search_rep_isSome_iff]
    exact hruns
  have hspaces : 0 < 50 := by decide
  have hdrop : dropRuns isSpace 50 [] text = text := by
    rw [← Lib.Regex.remove_rep hspaces text, Lib.Regex.remove_of_search hsearch]
  have hvisible' : text.filter (!isInvisible ·) = text := List.filter_eq_self.mpr (by simpa using hvisible)
  unfold stripped
  rw [List.take_of_length_le hlen, hvisible', hdrop]
  exact List.filter_eq_self.mpr (by simpa using hnull)

/-! ## When nothing is left to strip -/

/-- How much white space of a stretch is in runs that are too short to be stripped. -/
def shortSpace (stretch : List Char) : Nat := (((stretch.splitOnP isNull).map List.length).filter (· < 50)).sum

/-- In what is taken of the text, no stretch of white space and NUL has as much of it as is stripped. -/
def StretchesShort (text : List Char) : Prop :=
  ∀ stretch ∈ ((text.take maxInputLength).filter (!isInvisible ·)).splitOnP (fun c => !isSpace c && !isNull c),
    shortSpace stretch < 50

theorem length_flatten_shortRun (runs : List (List Char)) :
    (runs.map (shortRun 50)).flatten.length = ((runs.map List.length).filter (· < 50)).sum := by
  induction runs with
  | nil => rfl
  | cons run runs ih =>
    rw [List.map_cons, List.flatten_cons, List.length_append, ih, List.map_cons, List.filter_cons]
    unfold shortRun
    split
    · next h => simp [Nat.not_lt.mpr h]
    · next h => simp [Nat.not_le.mp h]

theorem not_longRun_stripped_iff (text : List Char) : ¬ LongRun isSpace 50 (stripped text) ↔ StretchesShort text := by
  have hspaces : 0 < 50 := by decide
  unfold stripped StretchesShort
  rw [Lib.Regex.longRun_filter_dropRuns_iff hspaces (fun c => isSpace_of_isNull)]
  simp only [length_flatten_shortRun, shortSpace, not_exists, not_and, Nat.not_le]

/-- The output is clean, and is left alone the second time, just when the white space between other characters is short. -/
theorem sanitize_clean_iff (u : Unicode) (z : InputSanitizer) (text : List Char) :
    (Clean u (z.sanitize u text).1.sanitized ∧
      ∀ z' : InputSanitizer, (z'.sanitize u (z.sanitize u text).1.sanitized).1.sanitized = (z.sanitize u text).1.sanitized) ↔
    StretchesShort text := by
  rw [← not_longRun_stripped_iff, sanitized_eq]
  constructor
  · rintro ⟨hclean, -⟩
    exact (clean_iff.mp hclean).2.1
  · intro hruns
    have hclean : Clean u (stripped text) :=
      clean_iff.mpr ⟨fun c hc => (mem_stripped hc).1, hruns, fun c hc => (mem_stripped hc).2⟩
    refine ⟨hclean, fun z' => ?_⟩
    rw [sanitized_eq]
    exact stripped_of_clean hclean (length_stripped_le text)

/-- Half of the white space on each side of a NUL. -/
def halves : List Char := List.replicate 25 ' ' ++ Char.ofNat 0 :: List.replicate 25 ' '

theorem halves_not_clean :
    ¬ ∀ (u : Unicode) (z : InputSanitizer) (text : List Char), Clean u (z.sanitize u text).1.sanitized ∧
      ∀ z' : InputSanitizer,
        (z'.sanitize u (z.sanitize u text).1.sanitized).1.sanitized = (z.sanitize u text).1.sanitized := by
  intro h
  have hclean := (h .ascii {} halves).1
  rw [sanitized_eq] at hclean
  refine (clean_iff.mp hclean).2.1 ((not_iff_comm.mp (not_longRun_stripped_iff halves)).mp fun hshort => ?_)
  exact absurd (hshort halves (by decide +kernel)) (by decide +kernel)

end InputSanitizer

end Occp.Security
