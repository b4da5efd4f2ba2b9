import Mathlib.Data.List.MinMax
import Occp.Adapters.DirectiveWire

/-!
# Directives that are lost

A backtick in a string can open a fence, and a closing bracket with a closing brace behind it can end the block early. What
is found then is no JSON, or lies inside the arguments of a directive.
-/

namespace Occp.Adapters

open Json
open Lib.Capture (Matches Step ends runEnds mem_ends mem_runEnds pairwise_runEnds head_flatMap)
open Lib.Capture.Pattern

variable {F : Floats} {ds : List Directive}

/-! ## What is parsed was in a candidate -/

theorem mem_gather {texts : List (List Char)} {raw : List Value} {v : Value} (h : v ∈ gather F texts raw) :
    v ∈ raw ∨ ∃ text ∈ texts, v ∈ embedded (loads F text) := by
  induction texts generalizing raw with
  | nil => exact .inl h
  | cons text texts ih =>
    have hstep {v : Value} (hv : v ∈ raw ++ embedded (loads F text)) :
        v ∈ raw ∨ ∃ text' ∈ text :: texts, v ∈ embedded (loads F text') := by
      rcases List.mem_append.mp hv with hv | hv
      · exact .inl hv
      · exact .inr ⟨text, List.mem_cons_self, hv⟩
    rw [gather] at h
    split at h
    · exact hstep h
    · rcases ih h with hv | ⟨text', htext', hv⟩
      · exact hstep hv
      · exact .inr ⟨text', List.mem_cons_of_mem text htext', hv⟩

theorem exists_candidate {text : List Char} {d : Directive} (h : d ∈ parseExecutionDirectives F text) :
    ∃ g ∈ candidates text, ∃ v ∈ embedded (loads F g), normalize F v = some d := by
  obtain ⟨v, hv, hnormalize⟩ := List.mem_filterMap.mp h
  rcases mem_gather (List.mem_of_mem_take hv) with hnil | ⟨g, hg, hembedded⟩
  · cases hnil
  · exact ⟨g, hg, v, hembedded, hnormalize⟩

theorem loads_object {g : List Char} {v : Value} (hstarts : ∃ w, g = '\x7b' :: w) (hends : ∃ w, g = w ++ ['\x7d'])
    (h : loads F g = some v) : Spells F v g := by
  obtain ⟨before, w, after, heq, hbefore, hafter, hspells⟩ := loads_iff.mp h
  obtain ⟨front, rfl⟩ := hends
  have hnil : before = [] := by
    cases before with
    | nil => rfl
    | cons c before =>
      obtain ⟨w', hw'⟩ := hstarts
      rw [hw'] at heq
      exact absurd (hbefore c List.mem_cons_self) ((List.cons.inj heq).1 ▸ by decide)
  have hnil' : after = [] := by
    rcases List.eq_nil_or_concat after with rfl | ⟨after, c, rfl⟩
    · rfl
    · have hc : c = '\x7d' := by
        have hlast := congrArg List.getLast? heq
        simpa using hlast.symm
      exact absurd (hafter c (by simp)) (hc ▸ by decide)
  rw [heq, hnil, hnil']
  simpa using hspells

/-! ## A fence that is opened in a string -/

theorem Opening.mode {u : List Char} (h : Opening u) {m : Mode} (hm : m ≠ .outside) : m.after u = .inside := by
  obtain ⟨word, s, rfl, hword, hs⟩ := h
  have hrest : ∀ c ∈ '\x60' :: '\x60' :: (word ++ s), c ≠ '"' ∧ c ≠ '\\' := by
    have hplain : ∀ c ∈ word, c ≠ '"' ∧ c ≠ '\\' := by
      have hnone : '"' ∉ word ∧ '\\' ∉ word := by rcases hword with rfl | rfl <;> decide
      exact fun c hc => ⟨fun heq => hnone.1 (heq ▸ hc), fun heq => hnone.2 (heq ▸ hc)⟩
    have hspaces : ∀ c ∈ s, c ≠ '"' ∧ c ≠ '\\' := fun c hc =>
      ⟨fun heq => hs.not_mem (by decide) (heq ▸ hc), fun heq => hs.not_mem (by decide) (heq ▸ hc)⟩
    exact List.forall_mem_cons.mpr ⟨by decide, List.forall_mem_cons.mpr ⟨by decide, List.forall_mem_append.mpr ⟨hplain, hspaces⟩⟩⟩
  have hnext : m.next '\x60' = .inside := by
    cases m with
    | outside => exact absurd rfl hm
    | inside => rfl
    | escaped => rfl
  rw [fence_eq, List.cons_append, Mode.after_cons, hnext]
  exact Mode.after_inside hrest

theorem Marked.mem {g : List Char} (h : Marked g) : 'c' ∈ g := by
  obtain ⟨a, key, b, rfl, hkey, -⟩ := h
  have hmem : 'c' ∈ key := by rcases hkey with rfl | rfl <;> decide
  simp [hmem]

/-- What a fence in a string opens is no JSON: it is read with strings and other text swapped. -/
theorem fenced_not_loaded (h : ∀ d ∈ ds, Sendable F d) (htick : '\x60' ∈ payloadText F ds) {x u g v z : List Char}
    (hsplit : wireText F ds = x ++ (u ++ (g ++ (v ++ z)))) (hu : Opening u) (hg : Marked g) : loads F g = none := by
  rw [Option.eq_none_iff_forall_ne_some]
  intro value hloads
  have hspells := loads_object hg.starts hg.ends hloads
  have hblock : Spells F (payload ds) (payloadText F ds) := dumps_spells (readable_payload h)
  obtain ⟨w, rfl⟩ := hg.starts
  have hplace : header ++ (payloadText F ds ++ trailer) = (x ++ u) ++ '\x7b' :: (w ++ (v ++ z)) := by
    rw [← wireText, hsplit]
    simp
  rcases place_cases hplace with ⟨r, hheader, -⟩ | ⟨front, hfront, hinner⟩
  · exact brace_notMem_header (hheader ▸ by simp)
  rcases place_cases hinner with ⟨r, hr, hbehind⟩ | ⟨_, -, htrailer⟩
  swap
  · exact brace_notMem_trailer (htrailer ▸ by simp)
  cases front with
  | nil =>
    -- It would be the whole block, which has a backtick.
    rw [List.nil_append] at hr
    rw [hr] at hblock
    have hobjects : '\x7b' :: w ++ (v ++ z) = '\x7b' :: r ++ trailer := by simp [hbehind]
    have hsame := hspells.object_unique hblock hobjects
    rw [hr, ← hsame.2] at htick
    exact hg.no_backtick htick
  | cons c front =>
    obtain ⟨b, hb⟩ := payloadText_cons F ds
    obtain rfl : '\x7b' = c := (List.cons.inj (hb.symm.trans hr)).1
    rcases place_cases hfront with ⟨r', -, rfl⟩ | ⟨_, -, hopening⟩
    swap
    · have hnone := hu.not_mem (c := '\x7b') (by decide) (by decide) (by decide)
      exact hnone (hopening ▸ by simp)
    have htokens := hblock.lexed.tokens
    have hinside : '\x7b' :: (r' ++ u) ++ '\x7b' :: r = ('\x7b' :: r') ++ (u ++ '\x7b' :: r) := by simp
    rw [hr, hinside, tokensOutside_append, tokensOutside_append] at htokens
    obtain ⟨-, hopens, hbehindOpening⟩ := htokens
    -- A backtick is only in a string.
    have hmode : Mode.outside.after ('\x7b' :: r') ≠ .outside := by
      obtain ⟨word, s, rfl, -⟩ := hu
      rw [fence_eq] at hopens
      intro houtside
      exact absurd (hopens.1 houtside) (by decide)
    rw [hu.mode hmode] at hbehindOpening
    -- So what is found starts in a string, and it ends before the block does.
    obtain ⟨a, ha⟩ := hg.ends
    have hplace' : ('\x7b' :: r) ++ trailer = a ++ '\x7d' :: (v ++ z) := by
      have hwhole : '\x7b' :: (w ++ (v ++ z)) = a ++ '\x7d' :: (v ++ z) := by
        rw [← List.cons_append, ha]
        simp
      rw [← hwhole, hbehind]
      rfl
    rcases place_cases hplace' with ⟨behind, hbrace, -⟩ | ⟨_, -, htrailer⟩
    · have hg' : '\x7b' :: r = '\x7b' :: w ++ behind := by
        rw [hbrace, ha]
        simp
      rw [hg', tokensOutside_append] at hbehindOpening
      exact absurd (isToken_of_opposite hspells.lexed.tokens hbehindOpening.1 _ hg.mem) (by decide)
    · exact close_notMem_trailer (htrailer ▸ by simp)

theorem nothing_parsed (h : ∀ d ∈ ds, Sendable F d) (htick : '\x60' ∈ payloadText F ds) (hfenced : Fenced (wireText F ds)) :
    ∀ d, d ∉ parseExecutionDirectives F (wireText F ds) := by
  intro d hd
  obtain ⟨g, hg, v, hv, -⟩ := exists_candidate hd
  obtain ⟨c, cs, hfound⟩ := List.exists_cons_of_ne_nil (fenced_of_findAll hfenced)
  rw [candidates, hfound] at hg
  have hfound' := found_findAll consumes_fenced (wireText F ds)
  rw [hfound] at hfound'
  obtain ⟨x, u, v', z, hsplit, hu, hmarked, -⟩ := hfound'.exists_match hg
  rw [fenced_not_loaded h htick hsplit (matches_before.mp hu) (matches_group.mp hmarked)] at hv
  cases hv

/-! ## A block that ends early -/

def closing : List (Step Char) := [text [']'], spaces, text ['\x7d']]

theorem matches_closing {w : List Char} : Matches closing w ↔ ∃ s, w = ']' :: (s ++ ['\x7d']) ∧ AllSpaces s := by
  simp only [closing, matches_text, matches_spaces]
  constructor
  · rintro ⟨_, rfl, s, _, rfl, hs, _, rfl, rfl⟩
    exact ⟨s, by simp, hs⟩
  · rintro ⟨s, rfl, hs⟩
    exact ⟨s ++ ['\x7d'], rfl, s, ['\x7d'], rfl, hs, [], rfl, rfl⟩

theorem ends_lead (cs : List Char) :
    ends bareDirectives.group (lead ++ cs) = (runEnds (fun _ => true) cs).reverse.flatMap (ends closing) := by
  have hkey : directivesKey = ['"', 'd', 'i', 'r', 'e', 'c', 't', 'i', 'v', 'e', 's', '"'] := by decide
  have hquote : Text.isSpace '"' = false := by decide
  have hcolon : Text.isSpace ':' = false := by decide
  have hblank : Text.isSpace ' ' = true := by decide
  have hbracket : Text.isSpace '[' = false := by decide
  simp [bareDirectives, closing, lead, hkey, text, spaces, ends, Step.ends, runEnds, hquote, hcolon, hblank, hbracket]

theorem bare_solutions (cs : List Char) : bareDirectives.solutions cs =
    (ends bareDirectives.group cs).map fun stop => (cs.take (cs.length - stop.length), stop) := by
  have hbefore : ends bareDirectives.before cs = [cs] := rfl
  have hafter (stop : List Char) : ends bareDirectives.after stop = [stop] := rfl
  simp only [solutions, hbefore, hafter, List.flatMap_singleton, List.map_eq_flatMap]

/-- Behind the lead, with the text in front of the last bracket. -/
def behindLead (items : List Char) : List Char := items ++ ']' :: '\x7d' :: trailer

theorem payloadText_trailer : payloadText F ds ++ trailer = lead ++ behindLead (itemTexts F ds) := by
  rw [payloadText_eq, behindLead]
  simp

/-- The first try that gives something is the one with the longest rest. -/
theorem longest_of_first {stop : List Char} {g : List Char} {more : List (List Char × List Char)} {cs : List Char}
    (hfirst : bareDirectives.solutions (lead ++ cs) = (g, stop) :: more) :
    ∃ front z, cs = front ++ z ∧ stop ∈ ends closing z ∧
      ∀ front' z', cs = front' ++ z' → ends closing z' ≠ [] → z'.length ≤ z.length := by
  rw [bare_solutions] at hfirst
  obtain ⟨stop', others, hends, hstop, -⟩ := List.map_eq_cons_iff.mp hfirst
  obtain rfl := (Prod.mk.inj hstop).2
  rw [ends_lead] at hends
  obtain ⟨z, hz, hmem, hlongest⟩ := head_flatMap (List.pairwise_reverse.mpr (pairwise_runEnds _ _)) hends
  obtain ⟨front, -, hsplit⟩ := mem_runEnds.mp (List.mem_reverse.mp hz)
  refine ⟨front, z, hsplit, hmem, fun front' z' hsplit' => hlongest z' ?_⟩
  exact List.mem_reverse.mpr (mem_runEnds.mpr ⟨front', fun _ _ => rfl, hsplit'⟩)

/-- What is found first is no longer than any other match. -/
theorem closesLast_of_first {stop : List Char} {more : List (List Char × List Char)}
    (hfirst : bareDirectives.solutions (payloadText F ds ++ trailer) = (payloadText F ds, stop) :: more) :
    ClosesLast (payloadText F ds) := by
  have hstop : stop = trailer := by
    have hmem := mem_bare_solutions.mp (hfirst ▸ List.mem_cons_self)
    exact (List.append_cancel_left hmem.1).symm
  rw [payloadText_trailer, hstop] at hfirst
  obtain ⟨front, z, hsplit, hmem, hlongest⟩ := longest_of_first hfirst
  obtain ⟨_, hclosing, rfl⟩ := mem_ends.mp hmem
  obtain ⟨s', rfl, hs'⟩ := matches_closing.mp hclosing
  have hplace : itemTexts F ds ++ ']' :: [] = front ++ ']' :: s' := by
    rw [behindLead] at hsplit
    refine List.append_cancel_right (show _ ++ '\x7d' :: trailer = _ ++ '\x7d' :: trailer from ?_)
    simpa using hsplit
  obtain ⟨-, rfl⟩ := last_place hplace List.not_mem_nil (hs'.not_mem (by decide))
  intro x s y hclose hs
  -- The bracket is behind the lead, so it was tried.
  rw [payloadText_eq] at hclose
  rcases place_cases hclose with ⟨_, hlead, -⟩ | ⟨x', -, hitems⟩
  · have hbracket : ']' ∉ lead := by decide
    exact absurd (hlead ▸ by simp) hbracket
  have htried : behindLead (itemTexts F ds) = x' ++ (']' :: (s ++ ['\x7d']) ++ (y ++ trailer)) := by
    have hitems := congrArg (· ++ trailer) hitems
    simpa [behindLead] using hitems
  have hle := hlongest x' _ htried (List.ne_nil_of_mem (mem_ends.mpr ⟨_, matches_closing.mpr ⟨s, rfl, hs⟩, rfl⟩))
  simp only [List.length_cons, List.length_append, List.length_nil] at hle
  exact List.length_eq_zero_iff.mp (by omega)

/-! ## What is found behind -/

/-- An object that is written with this key first is none of the directives, so it is inside the arguments of one. -/
theorem part_of_payload {entries : Dict Value} {v : Value} (hv : v ≠ payload ds) (hpart : Part v (payload ds))
    (hdict : v = .dict entries) (hdirective : ∀ d ∈ ds, v ≠ d.value) : ∃ d ∈ ds, Part v (.dict d.args) := by
  subst hdict
  cases hpart with
  | refl => exact absurd rfl hv
  | entry he h =>
    rw [List.mem_singleton.mp he] at h
    cases h with
    | item hmem h =>
      obtain ⟨d, hd, rfl⟩ := List.mem_map.mp hmem
      refine ⟨d, hd, ?_⟩
      have hne := hdirective d hd
      unfold Directive.value at h hne
      cases h with
      | refl => exact absurd rfl hne
      | entry he h =>
        simp only [List.mem_cons, List.not_mem_nil, or_false] at he
        rcases he with rfl | rfl | rfl
        · cases h
        · exact h
        · cases h

theorem Bare.ends {g : List Char} (h : Bare g) : ∃ w, g = w ++ ['\x7d'] := by
  obtain ⟨s₁, s₂, s₃, m, s₄, rfl, -⟩ := h
  exact ⟨'\x7b' :: (s₁ ++ (directivesKey ++ (s₂ ++ ':' :: (s₃ ++ '[' :: (m ++ ']' :: s₄))))), by simp⟩

theorem Bare.first_key {g : List Char} (h : Bare g) : ∃ s y, g = '\x7b' :: (s ++ '"' :: 'd' :: y) ∧ AllSpaces s := by
  obtain ⟨s₁, s₂, s₃, m, s₄, rfl, hs₁, -⟩ := h
  obtain ⟨tail, htail⟩ : ∃ tail, directivesKey = '"' :: 'd' :: tail :=
    ⟨directivesKey.drop 2, by decide⟩
  exact ⟨s₁, _, by rw [htail]; rfl, hs₁⟩

/-- What a candidate behind the first one holds is inside the arguments of a directive. -/
theorem part_of_later (h : ∀ d ∈ ds, Sendable F d) {front g z : List Char} {v : Value} (hfront : front ≠ [])
    (hsplit : payloadText F ds ++ trailer = front ++ (g ++ z)) (hg : Bare g) (hloads : loads F g = some v) :
    ∃ d ∈ ds, Part v (.dict d.args) := by
  have hreadable := readable_payload h
  have hspells := loads_object hg.starts hg.ends hloads
  obtain ⟨a, ha⟩ := hg.ends
  obtain ⟨s, y, rfl, hs⟩ := hg.first_key
  -- The candidate is in the block.
  have hplace : payloadText F ds ++ trailer = (front ++ a) ++ '\x7d' :: z := by
    rw [hsplit, ha]
    simp
  rcases place_cases hplace with ⟨behind, hblock, rfl⟩ | ⟨_, -, htrailer⟩
  swap
  · exact absurd (htrailer ▸ by simp) close_notMem_trailer
  have hinner : dumps F.text (payload ds) = front ++ '\x7b' :: (s ++ '"' :: 'd' :: y ++ behind) := by
    have hshape : front ++ ('\x7b' :: (s ++ '"' :: 'd' :: y)) ++ behind = (front ++ a) ++ '\x7d' :: behind := by
      rw [ha]
      simp
    calc dumps F.text (payload ds) = (front ++ a) ++ '\x7d' :: behind := hblock
      _ = front ++ '\x7b' :: (s ++ '"' :: 'd' :: y ++ behind) := by rw [← hshape]; simp
  have hgap : ∀ c ∈ s, c ≠ '"' ∧ c ≠ '\\' := fun c hc =>
    ⟨fun heq => hs.not_mem (by decide) (heq ▸ hc), fun heq => hs.not_mem (by decide) (heq ▸ hc)⟩
  have hkey : s ++ '"' :: 'd' :: y ++ behind ++ trailer = s ++ '"' :: 'd' :: (y ++ (behind ++ trailer)) := by simp
  have hhead : trailer.head? ≠ some 'd' := by decide
  obtain ⟨part, more, hpart, htext⟩ :=
    part_of_brace hreadable (by decide) (by decide) (by decide) (by decide) hinner hgap hkey hhead
  have hwritten := dumps_spells (hpart.readable hreadable)
  obtain ⟨w, hw⟩ : ∃ w, dumps F.text part = '\x7b' :: w := by
    obtain ⟨c, w, hw⟩ := List.exists_cons_of_ne_nil hwritten.ne_nil
    rw [hw] at htext ⊢
    exact ⟨w, by rw [(List.cons.inj htext).1]⟩
  rw [hw] at hwritten htext
  have hobjects : '\x7b' :: (s ++ '"' :: 'd' :: y) ++ (behind ++ trailer) = '\x7b' :: w ++ more := by
    rw [← htext]
    simp
  obtain ⟨rfl, hsame⟩ := hspells.object_unique hwritten hobjects
  rw [← hsame] at hw
  obtain ⟨entries, hentries⟩ := hspells.dict_of_brace
  refine part_of_payload ?_ hpart hentries fun d _ => ?_
  · -- It is shorter than the block.
    rintro rfl
    rw [hw] at hinner
    have hlength := congrArg List.length hinner
    have hpos := List.length_pos_iff.mpr hfront
    simp only [List.length_append, List.length_cons] at hlength
    omega
  · -- A directive has another key first.
    rintro rfl
    obtain ⟨behindKey, hfirst⟩ : ∃ behindKey, dumps F.text d.value = '\x7b' :: '"' :: 't' :: behindKey := by
      have htool : dumpsString "tool" = '"' :: 't' :: ['o', 'o', 'l', '"'] := by decide
      rw [Directive.value, dumps, dumpsEntries, dumpsEntries, htool]
      exact ⟨_, rfl⟩
    have hchars := (List.cons.inj (hfirst.symm.trans hw)).2
    cases s with
    | nil => exact absurd (List.cons.inj (List.cons.inj hchars).2).1 (by decide)
    | cons c s => exact absurd (hs c List.mem_cons_self) ((List.cons.inj hchars).1 ▸ by decide)

theorem part_of_embedded {v w : Value} (h : w ∈ embedded (some v)) : Part w v := by
  cases v with
  | dict parsed =>
    rw [embedded, embeddedDict] at h
    split at h
    · next items hitems => exact .entry (Dict.mem_of_get? hitems) (.item h .refl)
    · split at h
      · rw [List.mem_singleton.mp h]
        exact .refl
      · cases h
  | list items => exact .item h .refl
  | _ => cases h

theorem sizeOf_nil_le (entries : Dict Value) : sizeOf (Value.dict []) ≤ sizeOf (Value.dict entries) := by
  cases entries with
  | nil => exact le_rfl
  | cons e entries =>
    rw [Value.dict.sizeOf_spec, Value.dict.sizeOf_spec, List.nil.sizeOf_spec, List.cons.sizeOf_spec]
    omega

/-- The arguments of a directive that is read are an entry of it. -/
theorem args_of_normalize {v : Value} {d : Directive} (h : normalize F v = some d) :
    d.args = [] ∨ sizeOf (Value.dict d.args) < sizeOf v := by
  cases v with
  | dict directive =>
    have hargs : (Dict.get? directive "args").getD (.dict []) = .dict d.args := by
      rw [normalize, normalizeDict] at h
      split at h
      · split at h
        · cases h
        · split at h
          · next args hargs =>
            rw [hargs]
            split at h
            · cases h
            · split at h <;> cases h <;> rfl
          · cases h
      · cases h
    cases hget : Dict.get? directive "args" with
    | none =>
      rw [hget, Option.getD_none] at hargs
      exact .inl (Value.dict.inj hargs).symm
    | some args =>
      rw [hget, Option.getD_some] at hargs
      subst hargs
      exact .inr (sizeOf_entry (Dict.mem_of_get? hget))
  | _ => cases h

/-- A candidate that is JSON is behind the first one. -/
theorem part_of_found (h : ∀ d ∈ ds, Sendable F d) (hlast : ¬ ClosesLast (payloadText F ds)) {found : List (List Char)}
    (hfound : bareDirectives.Found (payloadText F ds ++ trailer) found) {g : List Char} (hg : g ∈ found) {v : Value}
    (hloads : loads F g = some v) : ∃ d ∈ ds, Part v (.dict d.args) := by
  have hsome : (payloadText F ds, trailer) ∈ bareDirectives.solutions (payloadText F ds ++ trailer) :=
    mem_bare_solutions.mpr ⟨rfl, bare_payloadText⟩
  obtain ⟨cs, hcs⟩ : ∃ cs, cs = payloadText F ds ++ trailer := ⟨_, rfl⟩
  rw [← hcs] at hfound hsome
  cases hfound with
  | nil => cases hg
  | skip hnone =>
    rw [hnone] at hsome
    cases hsome
  | @hit _ first rest more gs hfirst hrest =>
    rw [hcs] at hfirst
    obtain ⟨hsplit, hbare⟩ := mem_bare_solutions.mp (hfirst ▸ List.mem_cons_self)
    rcases List.mem_cons.mp hg with rfl | hg
    · -- Two objects at one place are one.
      obtain ⟨w, rfl⟩ := hbare.starts
      obtain ⟨b, hb⟩ := payloadText_cons F ds
      have hblock : Spells F (payload ds) (payloadText F ds) := dumps_spells (readable_payload h)
      rw [hb] at hblock hsplit
      have hsame := (loads_object ⟨w, rfl⟩ hbare.ends hloads).object_unique hblock hsplit.symm
      rw [hsame.2, ← hb] at hfirst
      exact absurd (closesLast_of_first hfirst) hlast
    · obtain ⟨x, u, v', z, rfl, rfl, hgroup, rfl⟩ := hrest.exists_match hg
      have hne : first ++ x ≠ [] := by
        obtain ⟨w, rfl⟩ := hbare.starts
        exact List.cons_ne_nil _ _
      have hbehind : payloadText F ds ++ trailer = (first ++ x) ++ (g ++ z) := by
        rw [hsplit]
        simp
      exact part_of_later h hne hbehind (matches_bare.mp hgroup) hloads

/-- Where the first candidate is no JSON, arguments come from inside the arguments of a directive. -/
theorem smaller_args (h : ∀ d ∈ ds, Sendable F d) (hnot : ¬ Fenced (wireText F ds)) (hlast : ¬ ClosesLast (payloadText F ds))
    {d : Directive} (hd : d ∈ parseExecutionDirectives F (wireText F ds)) :
    d.args = [] ∨ ∃ e ∈ ds, sizeOf (Value.dict d.args) < sizeOf (Value.dict e.args) := by
  obtain ⟨g, hg, v, hv, hnormalize⟩ := exists_candidate hd
  rw [candidates, findAll_of_not_fenced hnot, found_bare_wire (found_findAll consumes_bare _)] at hg
  cases hloads : loads F g with
  | none =>
    rw [hloads] at hv
    cases hv
  | some value =>
    rw [hloads] at hv
    obtain ⟨e, he, hpart⟩ := part_of_found h hlast (found_findAll consumes_bare _) hg hloads
    refine (args_of_normalize hnormalize).imp_right fun hlt => ⟨e, he, ?_⟩
    exact hlt.trans_le ((part_of_embedded hv).sizeOf_le.trans hpart.sizeOf_le)

/-- There is a directive with the longest arguments. -/
theorem no_args (h : ∀ d ∈ ds, d.args = [] ∨ ∃ e ∈ ds, sizeOf (Value.dict d.args) < sizeOf (Value.dict e.args)) :
    ∀ d ∈ ds, d.args = [] := by
  intro d hd
  rcases h d hd with hnil | ⟨e, he, hlt⟩
  · exact hnil
  · cases hmax : ds.argmax fun d => sizeOf (Value.dict d.args) with
    | none =>
      rw [List.argmax_eq_none.mp hmax] at hd
      cases hd
    | some m =>
      have hle {d : Directive} (hd : d ∈ ds) : sizeOf (Value.dict d.args) ≤ sizeOf (Value.dict m.args) :=
        List.le_of_mem_argmax (f := fun d : Directive => sizeOf (Value.dict d.args)) hd hmax
      rcases h m (List.argmax_mem hmax) with hnil | ⟨e', he', hlt'⟩
      · have hle := hnil ▸ hle he
        have hsmall := sizeOf_nil_le d.args
        omega
      · have hle := hle he'
        omega

theorem no_backtick (h : ∀ d ∈ ds, Sendable F d) (hargs : ∀ d ∈ ds, d.args = []) : '\x60' ∉ payloadText F ds := by
  have htools : ∀ tool ∈ allowedDirectiveTools, '\x60' ∉ dumpsString tool := by decide
  have hrisks : ∀ risk ∈ allowedDirectiveRisk, '\x60' ∉ dumpsString risk := by decide
  have hlead : '\x60' ∉ lead := by decide
  have hitems : '\x60' ∉ itemTexts F ds := by
    intro hmem
    obtain ⟨x, y, hsplit⟩ := List.append_of_mem hmem
    obtain ⟨text, htext, _, x', r, heq, -⟩ := place_intercalate (by decide) hsplit
    obtain ⟨d, hd, rfl⟩ := List.mem_map.mp htext
    have htick : '\x60' ∈ dumps F.text d.value := heq ▸ by simp
    have htool : '\x60' ∉ dumpsString "tool" ∧ '\x60' ∉ dumpsString "args" ∧ '\x60' ∉ dumpsString "risk" := by decide
    simp [Directive.value, dumps, dumpsEntries, hargs d hd, htool, htools _ (h d hd).tool, hrisks _ (h d hd).risk, List.intercalate] at htick
  rw [payloadText_eq]
  simp [hlead, hitems]

/-- **The block is parsed as it was sent just when it is found whole.** -/
theorem parse_wire_iff (hcount : ds.length ≤ maxDirectivesPerResponse) (h : ∀ d ∈ ds, Sendable F d) :
    parseExecutionDirectives F (wireText F ds) = ds ↔ FoundWhole F ds := by
  refine ⟨fun heq => ?_, fun hwhole => parse_of_candidates hcount h (candidates_of_foundWhole hwhole)⟩
  by_contra hnot
  obtain ⟨htick, hor⟩ := not_or.mp hnot
  rw [Classical.not_not] at htick
  by_cases hfenced : Fenced (wireText F ds)
  · -- Nothing is parsed, so nothing was sent; but then there is no backtick.
    have hnone : ds = [] := by
      rw [List.eq_nil_iff_forall_not_mem]
      intro d hd
      exact nothing_parsed h htick hfenced d (heq.symm ▸ hd)
    exact no_backtick h (by rw [hnone]; nofun) htick
  · have hlast : ¬ ClosesLast (payloadText F ds) := fun hlast => hor ⟨hfenced, hlast⟩
    have hsmaller : ∀ d ∈ ds, d.args = [] ∨ ∃ e ∈ ds, sizeOf (Value.dict d.args) < sizeOf (Value.dict e.args) := fun d hd =>
      smaller_args h hfenced hlast (heq.symm ▸ hd)
    exact no_backtick h (no_args hsmaller) htick

/-- A command with backticks, and a list at the end of its arguments. -/
def execDate : Directive := ⟨"node.exec", [("command", .str "echo \x60date\x60"), ("nodes", .list [.int 1])], "low"⟩

theorem sendable_execDate : Sendable wholeFloats execDate where
  tool := by decide
  risk := by decide
  readable := by
    refine .dict (show ["command", "nodes"].Nodup by decide) ?_
    simp only [execDate, List.forall_mem_cons, List.not_mem_nil, false_implies, implies_true, and_true]
    exact ⟨.str _, .list (List.forall_mem_singleton.mpr (.int 1))⟩
  size := by decide

theorem parse_wire_iff_execDate :
    parseExecutionDirectives wholeFloats (wireText wholeFloats [execDate]) = [execDate] ↔ FoundWhole wholeFloats [execDate] :=
  parse_wire_iff (by decide) (List.forall_mem_singleton.mpr sendable_execDate)

/-- The command does not come out of its block. -/
theorem command_is_lost :
    ¬ ∀ (F : Floats) (ds : List Directive), ds.length ≤ maxDirectivesPerResponse → (∀ d ∈ ds, Sendable F d) →
      parseExecutionDirectives F (wireText F ds) = ds := by
  intro h
  have heq := h wholeFloats [execDate] (by decide) (List.forall_mem_singleton.mpr sendable_execDate)
  have hnone : (parseExecutionDirectives wholeFloats (wireText wholeFloats [execDate])).length = 0 := by decide +kernel
  rw [heq] at hnone
  cases hnone

/-! ## Any text -/

/-- What is read of the object that a directive comes from. -/
structure ReadFrom (directive : Dict Value) (d : Directive) : Prop where
  tool : orElse (directive.get? "tool") (directive.get? "exec_type") = some (.str d.tool)
  args : (directive.get? "args").getD (.dict []) = .dict d.args
  risk : d.risk = "low" ∨ directive.get? "risk" = some (.str d.risk)

/-- What the checks let through. -/
structure Checked (F : Floats) (d : Directive) : Prop where
  tool : d.tool ∈ allowedDirectiveTools
  risk : d.risk ∈ allowedDirectiveRisk
  size : (dumps F.text (.dict d.args)).length ≤ maxDirectiveArgsBytes

theorem normalize_spec {v : Value} {d : Directive} (h : normalize F v = some d) :
    Checked F d ∧ ∃ directive, v = .dict directive ∧ ReadFrom directive d := by
  cases v with
  | dict directive =>
    rw [normalize, normalizeDict] at h
    split at h
    · next tool htool =>
      split at h
      · cases h
      · next hallowed =>
        split at h
        · next args hargs =>
          split at h
          · cases h
          · next hsize =>
            have hlow : "low" ∈ allowedDirectiveRisk := by decide
            have htool' : tool ∈ allowedDirectiveTools := by simpa using (not_or.mp hallowed).2
            split at h
            · next risk hrisk =>
              cases h
              have hrisk' : (if risk ∈ allowedDirectiveRisk then risk else "low") ∈ allowedDirectiveRisk := by
                split
                · assumption
                · exact hlow
              refine ⟨⟨htool', hrisk', Nat.le_of_not_lt hsize⟩, directive, rfl, htool, hargs, ?_⟩
              dsimp only
              split
              · cases hget : Dict.get? directive "risk" with
                | none =>
                  rw [hget, Option.getD_none] at hrisk
                  exact .inl (Value.str.inj hrisk).symm
                | some v =>
                  rw [hget, Option.getD_some] at hrisk
                  exact .inr (congrArg some hrisk)
              · exact .inl rfl
            · cases h
              exact ⟨⟨htool', hlow, Nat.le_of_not_lt hsize⟩, directive, rfl, htool, hargs, .inl rfl⟩
        · cases h
    · cases h
  | _ => cases h

/-- A candidate is a part of the text that looks like an object. -/
theorem part_of_candidate {text g : List Char} (hg : g ∈ candidates text) :
    (∃ x z, text = x ++ (g ++ z)) ∧ (∃ w, g = '\x7b' :: w) ∧ ∃ w, g = w ++ ['\x7d'] := by
  unfold candidates at hg
  split at hg
  · obtain ⟨x, u, v, z, heq, hbefore, hgroup, hafter⟩ := (found_findAll consumes_bare text).exists_match hg
    have hbare := matches_bare.mp hgroup
    exact ⟨⟨x ++ u, v ++ z, by rw [heq]; simp⟩, hbare.starts, hbare.ends⟩
  · obtain ⟨x, u, v, z, heq, hbefore, hgroup, hafter⟩ := (found_findAll consumes_fenced text).exists_match hg
    have hmarked := matches_group.mp hgroup
    exact ⟨⟨x ++ u, v ++ z, by rw [heq]; simp⟩, hmarked.starts, hmarked.ends⟩

/-- The text has a JSON value in it, and that value an object, that the directive is read from. -/
def Written (F : Floats) (text : List Char) (d : Directive) : Prop :=
  ∃ x g z v directive, text = x ++ (g ++ z) ∧ Spells F v g ∧ Part (.dict directive) v ∧ ReadFrom directive d

/-- **Whatever an agent answers.** At most ten directives come out of a text, each has passed the checks of tool, risk
and size, and each is read from an object that is written in the text. -/
theorem parsed_checked (F : Floats) (text : List Char) :
    (parseExecutionDirectives F text).length ≤ maxDirectivesPerResponse ∧
      ∀ d ∈ parseExecutionDirectives F text, Checked F d ∧ Written F text d := by
  constructor
  · calc (parseExecutionDirectives F text).length
        ≤ ((gather F (candidates text) []).take maxDirectivesPerResponse).length := List.length_filterMap_le _ _
      _ ≤ maxDirectivesPerResponse := List.length_take_le _ _
  · intro d hd
    obtain ⟨g, hg, w, hw, hnormalize⟩ := exists_candidate hd
    obtain ⟨hchecked, directive, rfl, hread⟩ := normalize_spec hnormalize
    obtain ⟨⟨x, z, htext⟩, hstarts, hends⟩ := part_of_candidate hg
    refine ⟨hchecked, ?_⟩
    cases hloads : loads F g with
    | none =>
      rw [hloads] at hw
      cases hw
    | some v =>
      rw [hloads] at hw
      exact ⟨x, g, z, v, directive, htext, loads_object hstarts hends hloads, part_of_embedded hw, hread⟩

end Occp.Adapters
