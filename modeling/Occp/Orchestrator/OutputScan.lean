import Occp.Orchestrator.QualityGate

/-!
# What the quality gate sees

The gate searches one text: the first of the usual fields that has one, or else the JSON of the
whole output. In that, a string stands as it is when nothing in it has to be escaped.
-/

namespace Occp.Quality.QualityGate

open Lib.Regex (Framed)
open Re (Pattern HasMatch ignoreCase)

def patternsOf (checkName : String) : List Pattern :=
  if checkName = "no_secrets" then secretPatterns
  else if checkName = "no_destructive_commands" then destructivePatterns
  else []

/-- A string that the gate gets to see as it is. -/
inductive Shown (output : Dict Value) (s : String) : Prop
  | preferred (h : preferred? output = some s)
  | dumped (h : preferred? output = none) (hs : Json.Inside s (.dict output)) (hplain : s.toList.all Json.plain = true)

/-- The check of this name is among the results, and has failed. -/
def ReportsFailure (agentId checkName : String) (checks : List QualityCheck) : Prop :=
  ∃ (i : Nat) (c : QualityCheck), (automatedChecks agentId)[i]? = some checkName ∧ checks[i]? = some c ∧
    c.checkType = .automated ∧ c.status = .failed

variable {u : Unicode} {floatText : Rat → String} {output : Dict Value} {s : String}

/-- A string that JSON writes as it is stands between quotes. -/
theorem framed_dumps (hs : Json.Inside s (.dict output)) (hplain : s.toList.all Json.plain = true) :
    Framed u.isWord s.toList (Json.dumps floatText (.dict output)) := by
  obtain ⟨before, after, hsplit⟩ := Json.dumpsString_infix floatText hs
  rw [Json.dumpsString_plain hplain] at hsplit
  refine ⟨before ++ ['"'], '"' :: after, by simp [← hsplit], ?_, ?_⟩
  · rw [List.getLast?_concat]
    exact u.isWord_quote
  · exact u.isWord_quote

theorem framed_extractContent (h : Shown output s) : Framed u.isWord s.toList (extractContent floatText output) := by
  unfold extractContent
  cases h with
  | preferred h =>
    rw [h]
    exact Lib.Regex.framed_refl s.toList
  | dumped h hs hplain =>
    rw [h]
    exact framed_dumps hs hplain

theorem firstFound_of_search {patterns : List Pattern} {p : Pattern} {content : List Char} (hp : p ∈ patterns)
    (h : (Re.search u (ignoreCase p.regex) content).isSome = true) :
    ∃ first ∈ patterns, firstFound u patterns content = some first := by
  have hsome : (firstFound u patterns content).isSome = true := List.find?_isSome.mpr ⟨p, hp, h⟩
  obtain ⟨first, hfirst⟩ := Option.isSome_iff_exists.mp hsome
  exact ⟨first, List.mem_of_find?_eq_some hfirst, hfirst⟩

theorem critical_feedback :
    (∀ p ∈ secretPatterns, isSubstring "secret".toList
      (Text.lower s!"Potential secret detected: pattern={p.source}".toList) = true) ∧
    ∀ p ∈ destructivePatterns, isSubstring "destructive".toList
      (Text.lower s!"Destructive command detected: {p.source}".toList) = true := by
  constructor
  · decide +kernel
  · decide +kernel

/-- A check that searches for a pattern fails when the pattern is there, for a reason that is critical. -/
theorem checker_fails {checkName : String} {p : Pattern} {content : List Char} (hp : p ∈ patternsOf checkName)
    (h : (Re.search u (ignoreCase p.regex) content).isSome = true) :
    ∃ feedback, checker u checkName content output = (false, feedback) ∧
      ["secret", "destructive"].any (fun word => isSubstring word.toList (Text.lower feedback.toList)) = true := by
  unfold patternsOf at hp
  split at hp
  · next hname =>
    subst hname
    obtain ⟨first, hmem, hfirst⟩ := firstFound_of_search hp h
    have hchecker : checker u "no_secrets" content output =
        (false, s!"Potential secret detected: pattern={first.source}") := by
      simp only [checker, checkNoSecrets, hfirst]
    refine ⟨_, hchecker, ?_⟩
    exact List.any_eq_true.mpr ⟨"secret", by simp, critical_feedback.1 first hmem⟩
  · split at hp
    · next hname =>
      subst hname
      obtain ⟨first, hmem, hfirst⟩ := firstFound_of_search hp h
      have hchecker : checker u "no_destructive_commands" content output =
          (false, s!"Destructive command detected: {first.source}") := by
        simp only [checker, checkNoDestructive, hfirst]
      refine ⟨_, hchecker, ?_⟩
      exact List.any_eq_true.mpr ⟨"destructive", by simp, critical_feedback.2 first hmem⟩
    · cases hp

theorem passes_of_critical {completed : List QualityCheck} {c : QualityCheck} (hc : c ∈ completed)
    (hhard : isHardFailure c = true) (hcritical : isCritical c = true) : passes completed = false := by
  have hmem : c ∈ completed.filter isHardFailure := List.mem_filter.mpr ⟨hc, hhard⟩
  have hsome : (completed.filter isHardFailure).length ≠ 0 := List.length_pos_of_mem hmem |>.ne'
  have hsome' : ((completed.filter isHardFailure).filter isCritical).length ≠ 0 :=
    List.length_pos_of_mem (List.mem_filter.mpr ⟨hmem, hcritical⟩) |>.ne'
  unfold passes
  dsimp only
  rw [decide_eq_false_iff_not]
  rintro (⟨hnone, -⟩ | ⟨-, hnone, -⟩)
  · exact hsome hnone
  · exact hsome' hnone

theorem brainFinalReview_of_critical {g : QualityGate} {checkId taskId : String} {checks : List QualityCheck}
    {c : QualityCheck} (hc : c ∈ checks) (hhard : isHardFailure c = true) (hcritical : isCritical c = true) :
    (brainFinalReview g checkId taskId checks).1 = false := by
  have hfailed : c.status = .failed := by simp_all [isHardFailure]
  have hcompleted : c ∈ checks.filter (·.status ≠ .pending) := by
    refine List.mem_filter.mpr ⟨hc, ?_⟩
    rw [hfailed]
    decide
  unfold brainFinalReview
  dsimp only
  rw [if_neg]
  · exact passes_of_critical hcompleted hhard hcritical
  · rw [List.isEmpty_iff, List.isEmpty_iff]
    exact not_or.mpr ⟨List.ne_nil_of_mem hc, List.ne_nil_of_mem hcompleted⟩

theorem matches_access_key : HasMatch .ascii (ignoreCase (.seq (Re.text "AKIA")
    (.rep (fun c => c.isUpper || c.isDigit) 16 (some 16)))) "key AKIA0123456789ABCDEF" :=
  ⟨"key ".toList, "AKIA0123456789ABCDEF".toList, [], by decide, by decide +kernel⟩

theorem accessKey_mem : ⟨"AKIA[A-Z0-9]\x7b16\x7d", .seq (Re.text "AKIA")
    (.rep (fun c => c.isUpper || c.isDigit) 16 (some 16))⟩ ∈ patternsOf "no_secrets" := by
  simp [patternsOf, secretPatterns]

end Occp.Quality.QualityGate
