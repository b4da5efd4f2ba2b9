import Occp.Adapters.Directives
import Occp.JsonParts

/-!
# Directives on the wire

The patterns look at characters and not at JSON. Where no string holds a backtick, the block is found as it was written;
elsewhere it depends on what is around the backticks.
-/

namespace Occp.Adapters

open Json
open Lib.Capture (Matches Step)
open Lib.Capture.Pattern

/-! ## What the patterns match -/

def AllSpaces (s : List Char) : Prop := ∀ c ∈ s, Text.isSpace c = true

def NoBacktick (w : List Char) : Prop := '\x60' ∉ w

/-- A fence, and `json` or not, and white space. -/
def Opening (u : List Char) : Prop := ∃ word s, u = fence ++ (word ++ s) ∧ (word = "json".toList ∨ word = []) ∧ AllSpaces s

/-- From a brace to a brace, with one of the marked keys between them and no backtick. -/
def Marked (g : List Char) : Prop :=
  ∃ a key b, g = '\x7b' :: (a ++ (key ++ (b ++ ['\x7d']))) ∧ (key = directivesKey ∨ key = execTypeKey) ∧ NoBacktick a ∧
    NoBacktick b

def Closing (v : List Char) : Prop := ∃ s, v = s ++ fence ∧ AllSpaces s

/-- `{"directives": [...]}`, with white space between the tokens. -/
def Bare (g : List Char) : Prop :=
  ∃ s₁ s₂ s₃ m s₄, g = '\x7b' :: (s₁ ++ (directivesKey ++ (s₂ ++ ':' :: (s₃ ++ '[' :: (m ++ ']' :: (s₄ ++ ['\x7d'])))))) ∧
    AllSpaces s₁ ∧ AllSpaces s₂ ∧ AllSpaces s₃ ∧ AllSpaces s₄

theorem matches_text {w v : List Char} {steps : List (Step Char)} :
    Matches (text w :: steps) v ↔ ∃ v', v = w ++ v' ∧ Matches steps v' := by
  simp only [Matches, text, Step.Matches, List.mem_singleton]
  constructor
  · rintro ⟨_, v', rfl, rfl, h⟩
    exact ⟨v', rfl, h⟩
  · rintro ⟨v', rfl, h⟩
    exact ⟨w, v', rfl, rfl, h⟩

theorem matches_spaces {v : List Char} {steps : List (Step Char)} :
    Matches (spaces :: steps) v ↔ ∃ s v', v = s ++ v' ∧ AllSpaces s ∧ Matches steps v' := Iff.rfl

/-- White space and a newline that may be there are white space. -/
theorem matches_gap {v : List Char} {steps : List (Step Char)} :
    Matches (spaces :: maybe ['\n'] :: steps) v ↔ ∃ s v', v = s ++ v' ∧ AllSpaces s ∧ Matches steps v' := by
  rw [matches_spaces]
  simp only [Matches, maybe, Step.Matches, List.mem_cons, List.not_mem_nil, or_false]
  constructor
  · rintro ⟨s, _, rfl, hs, n, v', rfl, hn, h⟩
    refine ⟨s ++ n, v', by rw [List.append_assoc], ?_, h⟩
    intro c hc
    rcases List.mem_append.mp hc with hc | hc
    · exact hs c hc
    · rcases hn with rfl | rfl
      · rw [List.mem_singleton.mp hc]
        decide
      · cases hc
  · rintro ⟨s, v', rfl, hs, h⟩
    exact ⟨s, v', rfl, hs, [], v', rfl, .inr rfl, h⟩

theorem matches_before {u : List Char} : Matches fencedJson.before u ↔ Opening u := by
  simp only [fencedJson, matches_text, Opening]
  constructor
  · rintro ⟨_, rfl, word, _, rfl, hword, hgap⟩
    obtain ⟨s, _, rfl, hs, rfl⟩ := matches_gap.mp hgap
    exact ⟨word, s, by rw [List.append_nil], by simpa [maybe, Step.Matches] using hword, hs⟩
  · rintro ⟨word, s, rfl, hword, hs⟩
    refine ⟨word ++ s, rfl, word, s, rfl, by simpa [maybe, Step.Matches] using hword, ?_⟩
    exact matches_gap.mpr ⟨s, [], by rw [List.append_nil], hs, rfl⟩

theorem matches_group {g : List Char} : Matches fencedJson.group g ↔ Marked g := by
  simp only [fencedJson, matches_text, Marked]
  have hplain {w : List Char} : (∀ c ∈ w, (c != '\x60') = true) ↔ NoBacktick w := by
    simp only [NoBacktick, bne_iff_ne]
    exact ⟨fun h hmem => h _ hmem rfl, fun h c hc heq => h (heq ▸ hc)⟩
  constructor
  · rintro ⟨_, rfl, a, _, rfl, ha, key, _, rfl, hkey, b, _, rfl, hb, hlast⟩
    obtain ⟨_, rfl, rfl⟩ := matches_text.mp hlast
    exact ⟨a, key, b, by simp, by simpa [Step.Matches] using hkey, hplain.mp ha, hplain.mp hb⟩
  · rintro ⟨a, key, b, rfl, hkey, ha, hb⟩
    refine ⟨_, rfl, a, _, rfl, hplain.mpr ha, key, _, rfl, by simpa [Step.Matches] using hkey, b, _, rfl, hplain.mpr hb, ?_⟩
    exact matches_text.mpr ⟨[], rfl, rfl⟩

theorem matches_after {v : List Char} : Matches fencedJson.after v ↔ Closing v := by
  simp only [fencedJson, matches_gap, matches_text, Closing]
  constructor
  · rintro ⟨s, _, rfl, hs, _, rfl, rfl⟩
    exact ⟨s, by rw [List.append_nil], hs⟩
  · rintro ⟨s, rfl, hs⟩
    exact ⟨s, fence, rfl, hs, [], by rw [List.append_nil], rfl⟩

theorem matches_bare {g : List Char} : Matches bareDirectives.group g ↔ Bare g := by
  simp only [bareDirectives, matches_text, matches_spaces, Bare]
  constructor
  · rintro ⟨_, rfl, s₁, _, rfl, hs₁, _, rfl, s₂, _, rfl, hs₂, _, rfl, s₃, _, rfl, hs₃, _, rfl, m, _, rfl, -, hlast⟩
    obtain ⟨_, rfl, hgap⟩ := matches_text.mp hlast
    obtain ⟨s₄, _, rfl, hs₄, hbrace⟩ := matches_spaces.mp hgap
    obtain ⟨_, rfl, rfl⟩ := matches_text.mp hbrace
    exact ⟨s₁, s₂, s₃, m, s₄, by simp, hs₁, hs₂, hs₃, hs₄⟩
  · rintro ⟨s₁, s₂, s₃, m, s₄, rfl, hs₁, hs₂, hs₃, hs₄⟩
    refine ⟨_, rfl, s₁, _, rfl, hs₁, _, rfl, s₂, _, rfl, hs₂, _, rfl, s₃, _, rfl, hs₃, _, rfl, m, _, rfl, fun _ _ => rfl, ?_⟩
    refine matches_text.mpr ⟨_, rfl, matches_spaces.mpr ⟨s₄, _, rfl, hs₄, matches_text.mpr ⟨[], rfl, rfl⟩⟩⟩

/-! ## The block -/

variable {F : Floats} {ds : List Directive}

def payload (ds : List Directive) : Value := .dict [("directives", .list (ds.map Directive.value))]

/-- What is in front of the first directive. -/
def lead : List Char := '\x7b' :: (directivesKey ++ [':', ' ', '['])

def itemTexts (F : Floats) (ds : List Directive) : List Char :=
  [',', ' '].intercalate (ds.map fun d => dumps F.text d.value)

variable (F ds) in
theorem payloadText_eq : payloadText F ds = lead ++ (itemTexts F ds ++ [']', '\x7d']) := by
  have hkey : dumpsString "directives" = directivesKey := by decide
  simp only [payloadText, dumps, dumpsEntries, List.intercalate_singleton, dumpsItems_eq, hkey, List.map_map, lead, itemTexts]
  simp [Function.comp_def]

variable (F ds) in
theorem payloadText_cons : ∃ w, payloadText F ds = '\x7b' :: w := ⟨_, payloadText_eq F ds⟩

variable (F ds) in
theorem payloadText_ends : ∃ w, payloadText F ds = w ++ ['\x7d'] :=
  ⟨lead ++ (itemTexts F ds ++ [']']), by rw [payloadText_eq]; simp⟩

/-- Its arguments are a JSON object that is not too long. -/
structure Sendable (F : Floats) (d : Directive) : Prop where
  tool : d.tool ∈ allowedDirectiveTools
  risk : d.risk ∈ allowedDirectiveRisk
  readable : Readable F (.dict d.args)
  size : (dumps F.text (.dict d.args)).length ≤ maxDirectiveArgsBytes

theorem Sendable.readable_value {d : Directive} (h : Sendable F d) : Readable F d.value := by
  refine .dict (show ["tool", "args", "risk"].Nodup by decide) ?_
  simp only [List.forall_mem_cons, List.not_mem_nil, false_implies, implies_true, and_true]
  exact ⟨.str d.tool, h.readable, .str d.risk⟩

theorem readable_payload (h : ∀ d ∈ ds, Sendable F d) : Readable F (payload ds) := by
  refine .dict (List.nodup_singleton "directives") ?_
  simp only [List.forall_mem_cons, List.not_mem_nil, false_implies, implies_true, and_true]
  exact .list (List.forall_mem_map.mpr fun d hd => (h d hd).readable_value)

theorem dumps_spells {v : Value} (h : Readable F v) : Spells F v (dumps F.text v) := by
  rw [← write_default F.text 0]
  exact write_spells .default h 0

theorem loads_dumps {v : Value} (h : Readable F v) : loads F (dumps F.text v) = some v := by
  rw [← write_default F.text 0]
  exact loads_write .default h

theorem normalize_value {d : Directive} (h : Sendable F d) : normalize F d.value = some d := by
  have hnonempty : d.tool ≠ "" := by
    intro hempty
    exact absurd (hempty ▸ h.tool) (by decide)
  have htruthy : (Value.str d.tool).truthy = true := by simp [Value.truthy, hnonempty]
  have htool : orElse (Dict.get? [("tool", .str d.tool), ("args", .dict d.args), ("risk", .str d.risk)] "tool")
      (Dict.get? [("tool", .str d.tool), ("args", .dict d.args), ("risk", .str d.risk)] "exec_type") = some (.str d.tool) := by
    simp [orElse, Dict.get?, htruthy]
  have hsize := h.size
  rw [Directive.value.eq_def, normalize.eq_def]
  dsimp only
  rw [normalizeDict, htool]
  simp [Dict.get?, hnonempty, h.tool, h.risk, Nat.not_lt.mpr hsize]

/-- Where the block is the only candidate, its directives are what is parsed. -/
theorem parse_of_candidates (hcount : ds.length ≤ maxDirectivesPerResponse) (h : ∀ d ∈ ds, Sendable F d)
    (hcandidates : candidates (wireText F ds) = [payloadText F ds]) : parseExecutionDirectives F (wireText F ds) = ds := by
  have hgather : gather F [payloadText F ds] [] = ds.map Directive.value := by
    have hloads : loads F (payloadText F ds) = some (payload ds) := loads_dumps (readable_payload h)
    simp only [gather, hloads, payload, embedded, embeddedDict, Dict.get?, List.nil_append]
    simp
  have htake : (ds.map Directive.value).take maxDirectivesPerResponse = ds.map Directive.value :=
    List.take_of_length_le (by rwa [List.length_map])
  rw [parseExecutionDirectives, hcandidates, hgather, htake, List.filterMap_map]
  calc ds.filterMap (normalize F ∘ Directive.value) = ds.filterMap some :=
        List.filterMap_congr fun d hd => normalize_value (h d hd)
    _ = ds := List.filterMap_some

/-! ## Places in the block -/

section Places

variable {α : Type} {u u' x y : List α} {c : α}

theorem first_place (h : u ++ c :: u' = x ++ c :: y) (hu : c ∉ u) (hx : c ∉ x) : u = x ∧ u' = y := by
  rcases place_cases h with ⟨r, rfl, -⟩ | ⟨x', rfl, hrest⟩
  · exact absurd (by simp) hu
  · cases x' with
    | nil => simpa using hrest
    | cons d x' =>
      obtain ⟨rfl, -⟩ := List.cons.inj hrest
      exact absurd (by simp) hx

theorem last_place (h : u ++ c :: u' = x ++ c :: y) (hu' : c ∉ u') (hy : c ∉ y) : u = x ∧ u' = y := by
  rcases place_cases h with ⟨r, -, rfl⟩ | ⟨x', rfl, hrest⟩
  · exact absurd (by simp) hy
  · cases x' with
    | nil => simpa using hrest
    | cons d x' =>
      rw [(List.cons.inj hrest).2] at hu'
      exact absurd (by simp) hu'

end Places

theorem fence_eq : fence = ['\x60', '\x60', '\x60'] := by decide

theorem AllSpaces.not_mem {s : List Char} (h : AllSpaces s) {c : Char} (hc : Text.isSpace c = false) : c ∉ s := by
  intro hmem
  rw [h c hmem] at hc
  cases hc

theorem Opening.not_mem {u : List Char} (h : Opening u) {c : Char} (hfence : c ∉ fence) (hword : c ∉ "json".toList)
    (hspace : Text.isSpace c = false) : c ∉ u := by
  obtain ⟨word, s, rfl, hjson, hs⟩ := h
  simp only [List.mem_append, not_or]
  refine ⟨hfence, ?_, hs.not_mem hspace⟩
  rcases hjson with rfl | rfl
  · exact hword
  · exact List.not_mem_nil

theorem Marked.no_backtick {g : List Char} (h : Marked g) : '\x60' ∉ g := by
  obtain ⟨a, key, b, rfl, hkey, ha, hb⟩ := h
  have hplain : '\x60' ∉ key := by rcases hkey with rfl | rfl <;> decide
  simp only [List.mem_cons, List.mem_append, List.not_mem_nil, or_false, not_or]
  exact ⟨by decide, ha, hplain, hb, by decide⟩

theorem Marked.starts {g : List Char} (h : Marked g) : ∃ w, g = '\x7b' :: w := by
  obtain ⟨a, key, b, rfl, -⟩ := h
  exact ⟨_, rfl⟩

theorem Marked.ends {g : List Char} (h : Marked g) : ∃ w, g = w ++ ['\x7d'] := by
  obtain ⟨a, key, b, rfl, -⟩ := h
  exact ⟨'\x7b' :: (a ++ (key ++ b)), by simp⟩

theorem Bare.starts {g : List Char} (h : Bare g) : ∃ w, g = '\x7b' :: w := by
  obtain ⟨_, _, _, _, _, rfl, -⟩ := h
  exact ⟨_, rfl⟩

theorem consumes_fenced : fencedJson.Consumes := by
  intro u g v _ hg _ heq
  obtain ⟨w, rfl⟩ := (matches_group.mp hg).starts
  simp at heq

theorem consumes_bare : bareDirectives.Consumes := by
  intro u g v _ hg _ heq
  obtain ⟨w, rfl⟩ := (matches_bare.mp hg).starts
  simp at heq

theorem brace_notMem_header : '\x7b' ∉ header := by decide

theorem brace_notMem_trailer : '\x7b' ∉ trailer := by decide

theorem close_notMem_trailer : '\x7d' ∉ trailer := by decide

theorem allSpaces_newline : AllSpaces ['\n'] := List.forall_mem_singleton.mpr (by decide)

theorem opening_header : Opening header := ⟨"json".toList, ['\n'], by decide, .inl rfl, allSpaces_newline⟩

theorem closing_trailer : Closing trailer := ⟨['\n'], rfl, allSpaces_newline⟩

/-! ## Where no string holds a backtick -/

theorem marked_payloadText (hplain : '\x60' ∉ payloadText F ds) : Marked (payloadText F ds) := by
  have heq := payloadText_eq F ds
  refine ⟨[], directivesKey, [':', ' ', '['] ++ (itemTexts F ds ++ [']']), by rw [heq]; simp [lead], .inl rfl, nofun, ?_⟩
  intro hmem
  refine hplain ?_
  rw [heq]
  simp only [lead, List.mem_append, List.mem_cons] at hmem ⊢
  tauto

/-- The fenced pattern finds the block, and nothing else. -/
theorem found_block (hplain : '\x60' ∉ payloadText F ds) : fencedJson.findAll (wireText F ds) = [payloadText F ds] := by
  refine findAll_eq consumes_fenced (found_only ?_ ?_ .nil)
  · refine mem_solutions.mpr ⟨header, trailer, by rw [wireText, List.append_nil], ?_, ?_, ?_⟩
    · exact matches_before.mpr opening_header
    · exact matches_group.mpr (marked_payloadText hplain)
    · exact matches_after.mpr closing_trailer
  · rintro ⟨g, rest⟩ h
    obtain ⟨u, v, hsplit, hu, hg, hv⟩ := mem_solutions.mp h
    have hu := matches_before.mp hu
    have hg := matches_group.mp hg
    obtain ⟨s, rfl, hs⟩ := matches_after.mp hv
    obtain ⟨w, hw⟩ := hg.starts
    obtain ⟨w', hw'⟩ := payloadText_cons F ds
    have hblock : payloadText F ds ++ trailer = g ++ (s ++ fence ++ rest) := by
      have hbrace : header ++ '\x7b' :: (w' ++ trailer) = u ++ '\x7b' :: (w ++ (s ++ fence ++ rest)) := by
        rw [wireText, hw, hw'] at hsplit
        exact hsplit
      have hopening := hu.not_mem (c := '\x7b') (by decide) (by decide) (by decide)
      rw [hw, hw', List.cons_append, List.cons_append, (first_place hbrace brace_notMem_header hopening).2]
    -- The first backtick behind it is the one of the last line.
    have htick : (payloadText F ds ++ ['\n']) ++ '\x60' :: ['\x60', '\x60'] = (g ++ s) ++ '\x60' :: (['\x60', '\x60'] ++ rest) := by
      rw [trailer, fence_eq] at hblock
      simpa using hblock
    obtain ⟨hfront, hbehind⟩ := first_place htick (by simp [hplain]) (by simp [hg.no_backtick, hs.not_mem (by decide : Text.isSpace '\x60' = false)])
    -- Behind the last brace of both there is white space.
    obtain ⟨b, hb⟩ := hg.ends
    obtain ⟨b', hb'⟩ := payloadText_ends F ds
    have hlast : b' ++ '\x7d' :: ['\n'] = b ++ '\x7d' :: s := by
      rw [hb, hb'] at hfront
      simpa using hfront
    obtain ⟨hsame, -⟩ := last_place hlast (by decide) (hs.not_mem (by decide))
    have hrest : rest = [] := by simpa using hbehind
    rw [hb, hb', hsame, hrest]

/-! ## Where the block is no match for the fenced pattern -/

/-- Somewhere the fenced pattern matches. -/
def Fenced (text : List Char) : Prop :=
  ∃ x u g v z, text = x ++ (u ++ (g ++ (v ++ z))) ∧ Opening u ∧ Marked g ∧ Closing v

/-- A bracket and a brace, with white space between them, are only found at the end. -/
def ClosesLast (text : List Char) : Prop := ∀ x s y, text = x ++ ']' :: (s ++ '\x7d' :: y) → AllSpaces s → y = []

theorem fenced_of_solution {text x y g rest : List Char} (hsplit : text = x ++ y) (h : (g, rest) ∈ fencedJson.solutions y) :
    Fenced text := by
  obtain ⟨u, v, rfl, hu, hg, hv⟩ := mem_solutions.mp h
  exact ⟨x, u, g, v, rest, hsplit, matches_before.mp hu, matches_group.mp hg, matches_after.mp hv⟩

theorem findAll_of_not_fenced {text : List Char} (h : ¬ Fenced text) : fencedJson.findAll text = [] := by
  refine findAll_eq consumes_fenced (found_nil fun x y hsplit => ?_)
  rw [List.eq_nil_iff_forall_not_mem]
  exact fun s hs => h (fenced_of_solution hsplit hs)

theorem fenced_of_findAll {text : List Char} (h : Fenced text) : fencedJson.findAll text ≠ [] := by
  intro hnone
  obtain ⟨x, u, g, v, z, hsplit, hu, hg, hv⟩ := h
  have hnil := (hnone ▸ found_findAll consumes_fenced text).no_match consumes_fenced hsplit
  have hmem : (g, z) ∈ fencedJson.solutions (u ++ (g ++ (v ++ z))) :=
    mem_solutions.mpr ⟨u, v, rfl, matches_before.mpr hu, matches_group.mpr hg, matches_after.mpr hv⟩
  rw [hnil] at hmem
  cases hmem

theorem mem_bare_solutions {cs g rest : List Char} : (g, rest) ∈ bareDirectives.solutions cs ↔ cs = g ++ rest ∧ Bare g := by
  rw [mem_solutions]
  constructor
  · rintro ⟨u, v, rfl, rfl, hg, rfl⟩
    exact ⟨rfl, matches_bare.mp hg⟩
  · rintro ⟨rfl, hg⟩
    exact ⟨[], [], rfl, rfl, matches_bare.mpr hg, rfl⟩

theorem bare_none {cs : List Char} (h : ∀ w, cs ≠ '\x7b' :: w) : bareDirectives.solutions cs = [] := by
  rw [List.eq_nil_iff_forall_not_mem]
  rintro ⟨g, rest⟩ hmem
  obtain ⟨rfl, hg⟩ := mem_bare_solutions.mp hmem
  obtain ⟨w, rfl⟩ := hg.starts
  exact h _ rfl

/-- The header has no brace. -/
theorem found_bare_wire {gs : List (List Char)} (h : bareDirectives.Found (payloadText F ds ++ trailer) gs) :
    bareDirectives.findAll (wireText F ds) = gs := by
  refine findAll_eq consumes_bare (h.skip_append fun x y hsplit hne => bare_none fun w heq => ?_)
  obtain ⟨c, y, rfl⟩ := List.exists_cons_of_ne_nil hne
  rw [List.cons_append] at heq
  rw [(List.cons.inj heq).1] at hsplit
  exact brace_notMem_header (hsplit ▸ by simp)

theorem bare_payloadText : Bare (payloadText F ds) := by
  have hnone : AllSpaces [] := List.forall_mem_nil _
  refine ⟨[], [], [' '], itemTexts F ds, [], by rw [payloadText_eq]; simp [lead], hnone, hnone, ?_, hnone⟩
  exact List.forall_mem_singleton.mpr (by decide)

/-- The bare pattern stops at the first bracket with a brace behind it. -/
theorem found_bare_block (hlast : ClosesLast (payloadText F ds)) :
    bareDirectives.Found (payloadText F ds ++ trailer) [payloadText F ds] := by
  refine found_only (mem_bare_solutions.mpr ⟨rfl, bare_payloadText⟩) ?_ ?_
  · rintro ⟨g, rest⟩ h
    obtain ⟨hsplit, s₁, s₂, s₃, m, s₄, rfl, -, -, -, hs₄⟩ := mem_bare_solutions.mp h
    obtain ⟨front, hfront⟩ : ∃ front, front = '\x7b' :: (s₁ ++ (directivesKey ++ (s₂ ++ ':' :: (s₃ ++ '[' :: m)))) := ⟨_, rfl⟩
    have hplace : payloadText F ds ++ trailer = (front ++ ']' :: s₄) ++ '\x7d' :: rest := by
      rw [hsplit, hfront]
      simp
    rcases place_cases hplace with ⟨r, hblock, rfl⟩ | ⟨x, -, htrailer⟩
    · have hr := hlast front s₄ r (by rw [hblock]; simp) hs₄
      rw [hr, List.nil_append, hblock, hfront, hr]
      simp
    · exact absurd (htrailer ▸ by simp) close_notMem_trailer
  · refine found_nil fun x y hsplit => bare_none fun w heq => brace_notMem_trailer ?_
    rw [hsplit, heq]
    simp

/-- Where the text of the block decides that it is found as it was written. -/
def FoundWhole (F : Floats) (ds : List Directive) : Prop :=
  '\x60' ∉ payloadText F ds ∨ ¬ Fenced (wireText F ds) ∧ ClosesLast (payloadText F ds)

theorem candidates_of_foundWhole (h : FoundWhole F ds) : candidates (wireText F ds) = [payloadText F ds] := by
  unfold candidates
  rcases h with hplain | ⟨hnot, hlast⟩
  · rw [found_block hplain]
  · rw [findAll_of_not_fenced hnot]
    exact found_bare_wire (found_bare_block hlast)

end Occp.Adapters
