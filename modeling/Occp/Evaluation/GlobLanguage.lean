import Occp.Evaluation.SelfModifier
import Occp.Lib.Words

/-!
# What a glob means (`evaluation/self_modifier.py`)

The language that the docstring of `_glob_to_regex` gives to a glob, beside the two that
`_glob_match` decides: one by way of `re`, the other by way of `fnmatch`.
-/

namespace Occp.Evaluation

open Lib (Piece spelled mem_spelled_cons append_mem_spelled)

/-! ## The documented language -/

inductive Token where
  | literal (c : Char)
  | question
  | star
  /-- `**`, where no slash follows. -/
  | anyText
  /-- `**` and the slash after it. -/
  | anyDepth
  deriving DecidableEq

inductive Item where
  | token (t : Token)
  | oneOf (words : List (List Char))

def readTokens : List Char → List Token
  | [] => []
  | '*' :: '*' :: '/' :: cs => .anyDepth :: readTokens cs
  | '*' :: '*' :: cs => .anyText :: readTokens cs
  | '*' :: cs => .star :: readTokens cs
  | '?' :: cs => .question :: readTokens cs
  | c :: cs => .literal c :: readTokens cs

/-- The items of a glob, with the number of characters that are already read. -/
def readItems : (read : Nat) → List Char → List Item
  | _, [] => []
  | read + 1, _ :: cs => readItems read cs
  | 0, '*' :: cs =>
    match cs with
    | '*' :: '/' :: _ => .token .anyDepth :: readItems 2 cs
    | '*' :: _ => .token .anyText :: readItems 1 cs
    | _ => .token .star :: readItems 0 cs
  | 0, '?' :: cs => .token .question :: readItems 0 cs
  | 0, '{' :: cs =>
    match upToBrace cs with
    | none => .token (.literal '{') :: readItems 0 cs
    | some alternatives => .oneOf (alternatives.splitOn ',') :: readItems (alternatives.length + 1) cs
  | 0, c :: cs => .token (.literal c) :: readItems 0 cs

/-- Part of one path segment, or all of it. -/
def segment : Language Char := {w | '/' ∉ w}

@[simp] theorem mem_segment {w : List Char} : w ∈ segment ↔ '/' ∉ w := Iff.rfl

def Token.language : Token → Language Char
  | literal c => {[c]}
  | question => {w | ∃ c, c ≠ '/' ∧ w = [c]}
  | star => segment
  -- Segments with slashes between them are any text.
  | anyText => ⊤
  | anyDepth => KStar.kstar (segment * {['/']})

@[simp] theorem Token.mem_literal {c : Char} {w : List Char} : w ∈ (literal c).language ↔ w = [c] := Iff.rfl

@[simp] theorem Token.mem_question {w : List Char} : w ∈ question.language ↔ ∃ c, c ≠ '/' ∧ w = [c] := Iff.rfl

@[simp] theorem Token.mem_star {w : List Char} : w ∈ star.language ↔ '/' ∉ w := Iff.rfl

@[simp] theorem Token.mem_anyText {w : List Char} : w ∈ anyText.language := trivial

def Item.language : Item → Language Char
  | token t => t.language
  | oneOf words => {w | ∃ word ∈ words, w ∈ spelled Token.language (readTokens word)}

/-- The paths that the docstring describes. -/
def documented (glob : List Char) : Language Char := spelled Item.language (readItems 0 glob)

/-! ## What the code makes of it -/

def Item.piece : Item → Piece
  | token (.literal c) => .literal c
  | token .question => .one notSlash
  | token .star => .many notSlash
  | token .anyText | token .anyDepth => .many notNewline
  | oneOf words => .oneOf words

theorem globToRegex_eq (read : Nat) (cs : List Char) : globToRegex read cs = (readItems read cs).map Item.piece := by
  fun_induction readItems read cs <;> simp_all [globToRegex, Item.piece]

/-- The paths that the regular expression matches, but for a final newline. -/
def coded (glob : List Char) : Language Char := spelled (Piece.language ∘ Item.piece) (readItems 0 glob)

theorem globMatch_regex (path : String) (glob : Glob) (h : globHasMeta glob.text.toList = true) :
    globMatch path glob = true ↔
      ∃ w ∈ coded glob.text.toList, path.toList = w ∨ path.toList = w ++ ['\n'] := by
  unfold globMatch
  dsimp only
  rw [if_pos h, Lib.matchPieces_iff, Lib.accepts_iff_spelled, globToRegex_eq, Lib.spelled_map]
  refine exists_congr fun w => and_congr_right fun _ => ?_
  constructor
  · rintro ⟨rest, hend, hpath⟩
    rw [← hpath]
    simpa [atEnd] using hend
  · rintro (hpath | hpath)
    · exact ⟨[], rfl, by rw [hpath, List.append_nil]⟩
    · exact ⟨['\n'], rfl, hpath.symm⟩

/-- `fnmatch` knows two wildcards, which a slash does not stop. -/
def Token.loose : Token → Piece
  | literal c => .literal c
  | question => .one fun _ => true
  | star | anyText | anyDepth => .many fun _ => true

def Token.simple : Token → Bool
  | anyText | anyDepth => false
  | _ => true

/-- Without `**` and braces the glob is a row of simple tokens. -/
theorem readTokens_of_not_meta (cs : List Char) (h : globHasMeta cs = false) :
    fnmatchToRegex cs = (readTokens cs).map Token.loose ∧ readItems 0 cs = (readTokens cs).map Item.token ∧
      (readTokens cs).all Token.simple = true := by
  simp only [globHasMeta, Bool.or_eq_false_iff] at h
  obtain ⟨hstars, hbrace⟩ := h
  have hbrace : ∀ c ∈ cs, c ≠ '{' := by
    intro c hc heq
    simp [heq ▸ hc] at hbrace
  fun_induction readTokens cs <;> simp_all [fnmatchToRegex, readItems, hasDoubleStar, Token.loose, Token.simple]

theorem globMatch_fnmatch (path : String) (glob : Glob) (h : globHasMeta glob.text.toList = false) :
    globMatch path glob = true ↔
      path.toList ∈ spelled (Piece.language ∘ Token.loose) (readTokens glob.text.toList) := by
  simp only [globMatch, h, Bool.false_eq_true, if_false, Lib.matchPieces_iff, Lib.accepts_iff_spelled,
    (readTokens_of_not_meta _ h).1, Lib.spelled_map, List.isEmpty_iff, exists_eq_left, List.append_nil, exists_eq_right]

theorem documented_of_not_meta {cs : List Char} (h : globHasMeta cs = false) :
    documented cs = spelled Token.language (readTokens cs) := by
  rw [documented, (readTokens_of_not_meta cs h).2.1, Lib.spelled_map]
  rfl

/-! ## Slashes -/

/-- A simple token spends as many slashes on a path as it is written with. -/
theorem count_slash_of_documented {cs w : List Char} (h : (readTokens cs).all Token.simple = true)
    (hw : w ∈ spelled Token.language (readTokens cs)) : w.count '/' = cs.count '/' := by
  fun_induction readTokens cs generalizing w with
  | case1 => simp_all
  | case2 => simp [Token.simple] at h
  | case3 => simp [Token.simple] at h
  | case4 cs _ _ ih =>
    obtain ⟨u, hu, v, hv, rfl⟩ := mem_spelled_cons.mp hw
    have hrest := ih (by simpa [Token.simple] using h) hv
    have hnone : u.count '/' = 0 := List.count_eq_zero.mpr hu
    simp [hrest, hnone]
  | case5 cs ih =>
    obtain ⟨u, ⟨c, hc, rfl⟩, v, hv, rfl⟩ := mem_spelled_cons.mp hw
    have hrest := ih (by simpa [Token.simple] using h) hv
    simp [hrest, hc]
  | case6 c cs _ _ _ _ ih =>
    obtain ⟨u, hu, v, hv, rfl⟩ := mem_spelled_cons.mp hw
    have hrest := ih (by simpa [Token.simple] using h) hv
    rw [show u = [c] from hu, List.singleton_append, List.count_cons, List.count_cons, hrest]

/-- The path in which every wildcard is a slash. -/
def slashed (cs : List Char) : List Char := cs.map fun c => if c = '*' ∨ c = '?' then '/' else c

theorem slashed_mem_loose (cs : List Char) (h : (readTokens cs).all Token.simple = true) :
    slashed cs ∈ spelled (Piece.language ∘ Token.loose) (readTokens cs) := by
  fun_induction readTokens cs with
  | case1 => exact rfl
  | case2 => simp [Token.simple] at h
  | case3 => simp [Token.simple] at h
  | case4 cs _ _ ih =>
    have hrest := ih (by simpa [Token.simple] using h)
    exact append_mem_spelled (u := ['/']) (by simp [Token.loose]) hrest
  | case5 cs ih =>
    have hrest := ih (by simpa [Token.simple] using h)
    exact append_mem_spelled (u := ['/']) (by simp [Token.loose]) hrest
  | case6 c cs _ _ hstar hquestion ih =>
    have hrest := ih (by simpa [Token.simple] using h)
    have hc : (if c = '*' ∨ c = '?' then '/' else c) = c := if_neg (by simp_all)
    refine append_mem_spelled (u := [if c = '*' ∨ c = '?' then '/' else c]) ?_ hrest
    simp [hc, Token.loose, Piece.literal]

theorem count_le_slashed (cs : List Char) : cs.count '/' ≤ (slashed cs).count '/' := by
  induction cs with
  | nil => simp [slashed]
  | cons c cs ih =>
    have hslash : c = '/' → ¬ (c = '*' ∨ c = '?') := by
      rintro rfl
      decide
    rw [slashed, List.map_cons, List.count_cons, List.count_cons, ← slashed]
    by_cases hc : c = '/'
    · simp [hc, ih]
    · simp only [beq_iff_eq, hc, if_false]
      omega

/-- A path with one slash more than the glob is not one of those it describes. -/
theorem count_lt_slashed {cs : List Char} {c : Char} (hc : c ∈ cs) (hwild : c = '*' ∨ c = '?') :
    cs.count '/' < (slashed cs).count '/' := by
  obtain ⟨before, after, rfl⟩ := List.append_of_mem hc
  have hbefore := count_le_slashed before
  have hafter := count_le_slashed after
  have hne : c ≠ '/' := by
    rintro rfl
    simp at hwild
  simp only [slashed, List.map_append, List.map_cons, List.count_append, List.count_cons, hwild, hne, if_true,
    beq_self_eq_true, beq_iff_eq, if_false] at hbefore hafter ⊢
  omega

theorem Token.language_le_loose {t : Token} (h : t.simple = true) {w : List Char} (hw : w ∈ t.language) :
    w ∈ t.loose.language := by
  cases t with
  | literal c => simpa [loose, Piece.literal] using hw
  | question =>
    obtain ⟨c, -, rfl⟩ := Token.mem_question.mp hw
    simp [loose]
  | star => simp [loose]
  | anyText => simp [simple] at h
  | anyDepth => simp [simple] at h

/-- A match in which the wildcards take no slash is a documented one. -/
theorem documented_of_loose {cs w : List Char} (h : (readTokens cs).all Token.simple = true)
    (hw : w ∈ spelled (Piece.language ∘ Token.loose) (readTokens cs)) :
    cs.count '/' ≤ w.count '/' ∧ (w.count '/' = cs.count '/' → w ∈ spelled Token.language (readTokens cs)) := by
  fun_induction readTokens cs generalizing w with
  | case1 => exact ⟨by simp, fun _ => hw⟩
  | case2 => simp [Token.simple] at h
  | case3 => simp [Token.simple] at h
  | case4 cs _ _ ih =>
    obtain ⟨u, -, v, hv, rfl⟩ := mem_spelled_cons.mp hw
    obtain ⟨hle, heq⟩ := ih (by simpa [Token.simple] using h) hv
    simp only [List.count_cons, List.count_append]
    refine ⟨by simp; omega, fun hcount => ?_⟩
    have hu : u.count '/' = 0 := by simp at hcount; omega
    exact append_mem_spelled (List.count_eq_zero.mp hu) (heq (by simp at hcount; omega))
  | case5 cs ih =>
    obtain ⟨u, hu, v, hv, rfl⟩ := mem_spelled_cons.mp hw
    obtain ⟨hle, heq⟩ := ih (by simpa [Token.simple] using h) hv
    obtain ⟨c, -, rfl⟩ := Lib.Piece.mem_language_one.mp hu
    simp only [List.singleton_append, List.count_cons]
    refine ⟨by simp; omega, fun hcount => ?_⟩
    have hc : c ≠ '/' := by
      rintro rfl
      simp at hcount
      omega
    exact append_mem_spelled (Token.mem_question.mpr ⟨c, hc, rfl⟩) (heq (by simpa [hc] using hcount))
  | case6 c cs _ _ _ _ ih =>
    obtain ⟨u, hu, v, hv, rfl⟩ := mem_spelled_cons.mp hw
    obtain ⟨hle, heq⟩ := ih (by simpa [Token.simple] using h) hv
    obtain ⟨d, hd, rfl⟩ := Lib.Piece.mem_language_one.mp hu
    obtain rfl : d = c := by simpa using hd
    simp only [List.singleton_append, List.count_cons]
    exact ⟨by omega, fun hcount => append_mem_spelled (Token.mem_literal.mpr rfl) (heq (by omega))⟩

/-- Without wildcards there is one match. -/
theorem eq_of_loose {cs w : List Char} (h : ∀ c ∈ cs, c ≠ '*' ∧ c ≠ '?')
    (hw : w ∈ spelled (Piece.language ∘ Token.loose) (readTokens cs)) : w = cs := by
  fun_induction readTokens cs generalizing w with
  | case1 => exact hw
  | case2 | case3 | case4 | case5 => simp at h
  | case6 c cs _ _ _ _ ih =>
    obtain ⟨u, hu, v, hv, rfl⟩ := mem_spelled_cons.mp hw
    obtain ⟨d, hd, rfl⟩ := Lib.Piece.mem_language_one.mp hu
    obtain rfl : d = c := by simpa using hd
    rw [ih (fun c hc => h c (List.mem_cons_of_mem _ hc)) hv, List.singleton_append]

theorem fnmatch_of_documented {glob : Glob} (h : globHasMeta glob.text.toList = false) {path : String}
    (hpath : path.toList ∈ documented glob.text.toList) : globMatch path glob = true := by
  rw [documented_of_not_meta h] at hpath
  refine (globMatch_fnmatch path glob h).mpr ?_
  refine Lib.mem_spelled_mono (p := fun _ => True) (fun _ _ _ => ⟨trivial, trivial⟩) (fun t ht w _ hw => ?_) trivial hpath
  exact Token.language_le_loose (List.all_eq_true.mp (readTokens_of_not_meta _ h).2.2 t ht) hw

/-- By way of `fnmatch`, a path with as many slashes as the glob is read as documented. -/
theorem fnmatch_documented_of_count {glob : Glob} (h : globHasMeta glob.text.toList = false) {path : String}
    (hcount : path.toList.count '/' = glob.text.toList.count '/') :
    globMatch path glob = true ↔ path.toList ∈ documented glob.text.toList := by
  refine ⟨fun hmatch => ?_, fnmatch_of_documented h⟩
  rw [documented_of_not_meta h]
  exact (documented_of_loose (readTokens_of_not_meta _ h).2.2 ((globMatch_fnmatch path glob h).mp hmatch)).2 hcount

/-- By way of `fnmatch`, a glob is read as documented just where it has no wildcard. -/
theorem fnmatch_documented_iff (glob : Glob) (h : globHasMeta glob.text.toList = false) :
    (∀ path, globMatch path glob = true ↔ path.toList ∈ documented glob.text.toList) ↔
      ∀ c ∈ glob.text.toList, c ≠ '*' ∧ c ≠ '?' := by
  have hsimple := (readTokens_of_not_meta _ h).2.2
  constructor
  · intro hall c hc
    rw [← not_or]
    intro hwild
    have hmem := (hall (String.ofList (slashed glob.text.toList))).mp ((globMatch_fnmatch _ glob h).mpr
      (by rw [String.toList_ofList]; exact slashed_mem_loose _ hsimple))
    rw [String.toList_ofList, documented_of_not_meta h] at hmem
    have hcount := count_slash_of_documented hsimple hmem
    have hlt := count_lt_slashed hc hwild
    omega
  · intro hnone path
    refine ⟨fun hmatch => ?_, fnmatch_of_documented h⟩
    have hpath := eq_of_loose hnone ((globMatch_fnmatch path glob h).mp hmatch)
    exact (fnmatch_documented_of_count h (by rw [hpath])).mp hmatch

/-! ## Newlines -/

/-- How often a slash follows a newline. -/
def turns : (afterNewline : Bool) → List Char → Nat
  | _, [] => 0
  | afterNewline, c :: cs => (if afterNewline ∧ c = '/' then 1 else 0) + turns (c == '\n') cs

theorem turns_le_of_false (b : Bool) (w : List Char) : turns b w ≤ turns false w + 1 := by
  cases w with
  | nil => simp [turns]
  | cons c w =>
    simp only [turns, Bool.false_eq_true, false_and, if_false]
    split <;> omega

theorem turns_false_le (b : Bool) (w : List Char) : turns false w ≤ turns b w := by
  cases w with
  | nil => simp [turns]
  | cons c w => simp [turns]

theorem turns_append_le (b : Bool) (u v : List Char) : turns b (u ++ v) ≤ turns b u + turns false v + 1 := by
  induction u generalizing b with
  | nil =>
    have hle := turns_le_of_false b v
    simpa [turns] using hle
  | cons c u ih =>
    have hle := ih (c == '\n')
    simp only [List.cons_append, turns]
    omega

theorem turns_le_append_left (b : Bool) (u v : List Char) : turns b u ≤ turns b (u ++ v) := by
  induction u generalizing b with
  | nil => simp [turns]
  | cons c u ih =>
    have hle := ih (c == '\n')
    simp only [List.cons_append, turns]
    omega

theorem turns_le_append_right (b : Bool) (u v : List Char) : turns false v ≤ turns b (u ++ v) := by
  induction u generalizing b with
  | nil => exact turns_false_le b v
  | cons c u ih =>
    have hle := ih (c == '\n')
    simp only [List.cons_append, turns]
    omega

theorem turns_of_no_newline {w : List Char} (h : '\n' ∉ w) : turns false w = 0 := by
  induction w with
  | nil => rfl
  | cons c w ih =>
    simp only [List.mem_cons, not_or] at h
    have hc : (c == '\n') = false := by simpa using fun heq => h.1 heq.symm
    simp [turns, hc, ih h.2]

theorem turns_of_no_slash {b : Bool} {w : List Char} (h : '/' ∉ w) : turns b w = 0 := by
  induction w generalizing b with
  | nil => rfl
  | cons c w ih =>
    simp only [List.mem_cons, not_or] at h
    have hc : c ≠ '/' := fun heq => h.1 heq.symm
    simp [turns, hc, ih h.2]

theorem turns_le_length (b : Bool) (w : List Char) : turns b w ≤ w.length := by
  induction w generalizing b with
  | nil => simp [turns]
  | cons c w ih =>
    have hle := ih (c == '\n')
    simp only [turns, List.length_cons]
    split <;> omega

theorem turns_replicate (n : Nat) : turns false (List.replicate n ['\n', '/']).flatten = n := by
  induction n with
  | zero => rfl
  | succ n ih =>
    rw [List.replicate_succ, List.flatten_cons]
    simp [turns, ih]
    omega

/-- No piece of the regular expression takes both newlines and slashes without end. -/
theorem coded_bounded (items : List Item) :
    ∃ b, ∀ w ∈ spelled (Piece.language ∘ Item.piece) items, turns false w ≤ b := by
  refine Lib.spelled_bounded (turns_append_le false) fun i _ => ?_
  cases i with
  | token t =>
    refine ⟨1, fun w hw => ?_⟩
    cases t with
    | literal c =>
      obtain ⟨d, -, rfl⟩ := Lib.Piece.mem_language_one.mp hw
      exact turns_le_length false [d]
    | question =>
      obtain ⟨d, -, rfl⟩ := Lib.Piece.mem_language_one.mp hw
      exact turns_le_length false [d]
    | star =>
      have hall := Lib.Piece.mem_language_many.mp hw
      rw [turns_of_no_slash fun hmem => absurd (hall '/' hmem) (by decide)]
      omega
    | anyText | anyDepth =>
      have hall := Lib.Piece.mem_language_many.mp hw
      rw [turns_of_no_newline fun hmem => absurd (hall '\n' hmem) (by decide)]
      omega
  | oneOf words =>
    refine ⟨words.flatten.length, fun w hw => (turns_le_length false w).trans ?_⟩
    exact (List.sublist_flatten_of_mem (Lib.Piece.mem_language_oneOf.mp hw)).length_le

/-! ## Double stars -/

def Token.deep : Token → Bool
  | anyText | anyDepth => true
  | _ => false

theorem Token.exists_mem (t : Token) : ∃ w, w ∈ t.language := by
  cases t with
  | literal c => exact ⟨[c], rfl⟩
  | question => exact ⟨['a'], 'a', by decide, rfl⟩
  | star => exact ⟨[], by simp⟩
  | anyText => exact ⟨[], trivial⟩
  | anyDepth => exact ⟨[], Language.nil_mem_kstar _⟩

theorem Token.unbounded {t : Token} (h : t.deep = true) (b : Nat) : ∃ w ∈ t.language, b ≤ turns false w := by
  refine ⟨(List.replicate b ['\n', '/']).flatten, ?_, (turns_replicate b).ge⟩
  cases t with
  | literal | question | star => simp [deep] at h
  | anyText => trivial
  | anyDepth =>
    refine Language.mem_kstar.mpr ⟨_, rfl, fun w hw => ?_⟩
    rw [List.eq_of_mem_replicate hw]
    exact Language.append_mem_mul (a := ['\n']) (b := ['/']) (show '/' ∉ ['\n'] by decide) rfl

/-- `**` stands in the glob, or in an alternative of it. -/
def Item.deep : Item → Bool
  | token t => t.deep
  | oneOf words => words.any fun word => (readTokens word).any Token.deep

theorem Item.unbounded {i : Item} (h : i.deep = true) (b : Nat) : ∃ w ∈ i.language, b ≤ turns false w := by
  cases i with
  | token t => exact Token.unbounded h b
  | oneOf words =>
    obtain ⟨word, hword, hdeep⟩ := List.any_eq_true.mp h
    obtain ⟨t, ht, hdeep⟩ := List.any_eq_true.mp hdeep
    obtain ⟨w, hw, hle⟩ := Lib.spelled_unbounded (turns_le_append_left false) (turns_le_append_right false)
      (fun t _ => t.exists_mem) ht (Token.unbounded hdeep) b
    exact ⟨w, ⟨word, hword, hw⟩, hle⟩

theorem hasDoubleStar_cons {c : Char} (hc : c ≠ '*') (cs : List Char) : hasDoubleStar (c :: cs) = hasDoubleStar cs := by
  rw [hasDoubleStar]
  simp_all

theorem hasDoubleStar_append {c : Char} (hc : c ≠ '*') (before after : List Char) :
    hasDoubleStar (before ++ c :: after) = (hasDoubleStar before || hasDoubleStar after) := by
  fun_induction hasDoubleStar before with
  | case1 cs => simp [hasDoubleStar]
  | case2 a cs hcs ih =>
    rw [← ih, List.cons_append, hasDoubleStar]
    intro rest ha hrest
    cases cs with
    | nil => exact hc (List.cons.inj hrest).1
    | cons b cs =>
      obtain ⟨rfl, -⟩ := List.cons.inj hrest
      exact hcs cs ha rfl
  | case3 => simp [hasDoubleStar_cons hc]

theorem deep_of_hasDoubleStar (cs : List Char) (h : hasDoubleStar cs = true) :
    (readTokens cs).any Token.deep = true := by
  fun_induction readTokens cs <;> simp_all [hasDoubleStar, Token.deep]

theorem hasDoubleStar_word {text : List Char} (h : hasDoubleStar text = true) :
    ∃ word ∈ text.splitOn ',', hasDoubleStar word = true := by
  have hjoin : [','].intercalate (text.splitOn ',') = text := List.intercalate_splitOn ','
  generalize text.splitOn ',' = words at hjoin
  induction words generalizing text with
  | nil =>
    subst hjoin
    simp [hasDoubleStar] at h
  | cons word words ih =>
    cases words with
    | nil =>
      refine ⟨word, List.mem_cons_self, ?_⟩
      rw [← h, ← hjoin]
      simp
    | cons next words =>
      rw [List.intercalate_cons_cons, List.append_assoc, List.singleton_append] at hjoin
      rw [← hjoin, hasDoubleStar_append (by decide), Bool.or_eq_true] at h
      rcases h with h | h
      · exact ⟨word, List.mem_cons_self, h⟩
      · obtain ⟨word', hmem, hword⟩ := ih h rfl
        exact ⟨word', List.mem_cons_of_mem _ hmem, hword⟩

theorem upToBrace_eq_some {cs before : List Char} (h : upToBrace cs = some before) :
    cs = before ++ '}' :: cs.drop (before.length + 1) := by
  induction cs generalizing before with
  | nil => simp [upToBrace] at h
  | cons c cs ih =>
    rw [upToBrace] at h
    split at h
    · next hc =>
      obtain rfl : [] = before := by simpa using h
      simp [hc]
    · obtain ⟨rest, hrest, rfl⟩ := Option.map_eq_some_iff.mp h
      have htail := ih hrest
      simp only [List.cons_append, List.length_cons, List.drop_succ_cons]
      rw [← htail]

/-- A glob with `**` has an item that takes paths of any depth. -/
theorem exists_deep (read : Nat) (cs : List Char) (h : hasDoubleStar (cs.drop read) = true) :
    ∃ i ∈ readItems read cs, i.deep = true := by
  fun_induction readItems read cs with
  | case1 => simp [hasDoubleStar] at h
  | case2 read c cs ih => exact ih h
  | case3 => exact ⟨_, List.mem_cons_self, rfl⟩
  | case4 => exact ⟨_, List.mem_cons_self, rfl⟩
  | case5 cs hslash hstar ih =>
    have hcs : hasDoubleStar cs = true := by
      rw [← h, List.drop_zero, hasDoubleStar]
      simp_all
    obtain ⟨i, hi, hdeep⟩ := ih hcs
    exact ⟨i, List.mem_cons_of_mem _ hi, hdeep⟩
  | case6 cs ih =>
    rw [List.drop_zero, hasDoubleStar_cons (by decide)] at h
    obtain ⟨i, hi, hdeep⟩ := ih h
    exact ⟨i, List.mem_cons_of_mem _ hi, hdeep⟩
  | case7 cs hnone ih =>
    rw [List.drop_zero, hasDoubleStar_cons (by decide)] at h
    obtain ⟨i, hi, hdeep⟩ := ih h
    exact ⟨i, List.mem_cons_of_mem _ hi, hdeep⟩
  | case8 cs alternatives hsome ih =>
    rw [List.drop_zero, hasDoubleStar_cons (by decide), upToBrace_eq_some hsome, hasDoubleStar_append (by decide),
      Bool.or_eq_true] at h
    rcases h with h | h
    · obtain ⟨word, hword, hstars⟩ := hasDoubleStar_word h
      exact ⟨_, List.mem_cons_self, List.any_eq_true.mpr ⟨word, hword, deep_of_hasDoubleStar word hstars⟩⟩
    · obtain ⟨i, hi, hdeep⟩ := ih h
      exact ⟨i, List.mem_cons_of_mem _ hi, hdeep⟩
  | case9 c cs hstar _ _ ih =>
    rw [List.drop_zero, hasDoubleStar_cons hstar] at h
    obtain ⟨i, hi, hdeep⟩ := ih h
    exact ⟨i, List.mem_cons_of_mem _ hi, hdeep⟩

theorem Item.exists_mem (read : Nat) (cs : List Char) : ∀ i ∈ readItems read cs, ∃ w, w ∈ i.language := by
  have hwords (words : List (List Char)) (h : words ≠ []) : ∃ w, w ∈ (Item.oneOf words).language := by
    obtain ⟨word, hword⟩ := List.exists_mem_of_ne_nil words h
    obtain ⟨w, hw⟩ := Lib.exists_mem_spelled fun (t : Token) (_ : t ∈ readTokens word) => t.exists_mem
    exact ⟨w, word, hword, hw⟩
  have htoken (t : Token) : ∃ w, w ∈ (Item.token t).language := t.exists_mem
  fun_induction readItems read cs with
  | case1 => simp
  | case2 read c cs ih => exact ih
  | case8 cs alternatives hsome ih => exact List.forall_mem_cons.mpr ⟨hwords _ (List.splitOn_ne_nil _ _), ih⟩
  | _ => exact List.forall_mem_cons.mpr ⟨htoken _, by assumption⟩

/-- With `**` the code is off on some path: what stands for `**` takes no newline. -/
theorem not_documented_of_hasDoubleStar {glob : Glob} (h : hasDoubleStar glob.text.toList = true) :
    ∃ path, path.toList ∈ documented glob.text.toList ∧ globMatch path glob = false := by
  have hmeta : globHasMeta glob.text.toList = true := by simp [globHasMeta, h]
  obtain ⟨b, hb⟩ := coded_bounded (readItems 0 glob.text.toList)
  obtain ⟨i, hi, hdeep⟩ := exists_deep 0 glob.text.toList h
  obtain ⟨w, hw, hle⟩ := Lib.spelled_unbounded (turns_le_append_left false) (turns_le_append_right false)
    (Item.exists_mem 0 _) hi (Item.unbounded hdeep) (b + 2)
  refine ⟨String.ofList w, by rwa [String.toList_ofList], Bool.eq_false_iff.mpr fun hmatch => ?_⟩
  obtain ⟨u, hu, hpath⟩ := (globMatch_regex _ glob hmeta).mp hmatch
  rw [String.toList_ofList] at hpath
  have hbu := hb u hu
  rcases hpath with rfl | rfl
  · omega
  · have hnewline := turns_append_le false u ['\n']
    have hnone : turns false ['\n'] = 0 := rfl
    omega

/-! ## Alternatives -/

/-- With alternatives that are plain text. -/
def Item.plainly : Item → Language Char
  | token t => t.language
  | oneOf words => {w | w ∈ words}

/-- The paths that the glob describes when a wildcard in an alternative stands for itself. -/
def plainly (glob : List Char) : Language Char := spelled Item.plainly (readItems 0 glob)

theorem Item.language_piece {i : Item} (h : ∀ t, i = token t → t.deep = false) : i.piece.language = i.plainly := by
  ext w
  cases i with
  | oneOf words => exact Lib.Piece.mem_language_oneOf
  | token t =>
    have ht := h t rfl
    cases t with
    | literal c =>
      show _ ↔ w = [c]
      simp [piece, Piece.literal]
    | question =>
      show _ ↔ ∃ c, c ≠ '/' ∧ w = [c]
      simp [piece, notSlash]
    | star =>
      show _ ↔ '/' ∉ w
      simp only [piece, Lib.Piece.mem_language_many, notSlash, bne_iff_ne]
      exact ⟨fun hall hmem => hall '/' hmem rfl, fun hnone c hc heq => hnone (heq ▸ hc)⟩
    | anyText | anyDepth => simp [Token.deep] at ht

theorem deep_eq_false {read : Nat} {cs : List Char} (h : hasDoubleStar cs = false) :
    ∀ i ∈ readItems read cs, ∀ t, i = .token t → t.deep = false := by
  have htail (c : Char) (cs : List Char) (h : hasDoubleStar (c :: cs) = false) : hasDoubleStar cs = false := by
    rw [hasDoubleStar] at h
    · exact h
    · rintro rest rfl rfl
      simp [hasDoubleStar] at h
  fun_induction readItems read cs with
  | case1 => simp
  | case2 read c cs ih => exact ih (htail c cs h)
  | case3 | case4 => simp [hasDoubleStar] at h
  | _ =>
    rename_i ih
    exact List.forall_mem_cons.mpr ⟨by simp [Token.deep], ih (htail _ _ h)⟩

/-- Only `**` means something else to the code at the top. -/
theorem coded_eq_plainly {cs : List Char} (h : hasDoubleStar cs = false) : coded cs = plainly cs :=
  Lib.spelled_congr fun i hi => Item.language_piece (deep_eq_false h i hi)

/-- Where the code reads a glob as documented, on every path. Alternatives and the end are what
`re` reads in its own way: a wildcard in an alternative is escaped, and a final newline ignored. -/
def Exact (glob : List Char) : Prop :=
  hasDoubleStar glob = false ∧
    if glob.contains '{' then
      ∀ w, w ∈ documented glob ↔ ∃ u ∈ plainly glob, w = u ∨ w = u ++ ['\n']
    else ∀ c ∈ glob, c ≠ '*' ∧ c ≠ '?'

theorem documented_iff_exact (glob : Glob) :
    (∀ path, globMatch path glob = true ↔ path.toList ∈ documented glob.text.toList) ↔ Exact glob.text.toList := by
  by_cases hstars : hasDoubleStar glob.text.toList = true
  · obtain ⟨path, hpath, hfalse⟩ := not_documented_of_hasDoubleStar hstars
    refine iff_of_false (fun hall => ?_) fun hexact => ?_
    · simp [(hall path).mpr hpath] at hfalse
    · simp [hexact.1] at hstars
  · rw [Bool.not_eq_true] at hstars
    by_cases hbrace : glob.text.toList.contains '{' = true
    · have hmeta : globHasMeta glob.text.toList = true := by simp only [globHasMeta, hbrace, Bool.or_true]
      simp only [Exact, hstars, hbrace, if_true, true_and, globMatch_regex _ glob hmeta, coded_eq_plainly hstars]
      constructor
      · intro hall w
        have hw := hall (String.ofList w)
        rw [String.toList_ofList] at hw
        exact hw.symm
      · exact fun hall path => (hall path.toList).symm
    · have hmeta : globHasMeta glob.text.toList = false := by simp_all [globHasMeta]
      simp only [Exact, hstars, hbrace, true_and, Bool.false_eq_true, if_false]
      exact fnmatch_documented_iff glob hmeta

/-! ## Paths on one line -/

theorem append_mem_anyDepth {part w : List Char} (hpart : part ∈ segment * {['/']})
    (hw : w ∈ Token.anyDepth.language) : part ++ w ∈ Token.anyDepth.language := by
  obtain ⟨parts, rfl, hparts⟩ := Language.mem_kstar.mp hw
  exact Language.mem_kstar.mpr ⟨part :: parts, rfl, List.forall_mem_cons.mpr ⟨hpart, hparts⟩⟩

theorem append_mem_part {u part : List Char} (hu : '/' ∉ u) (hpart : part ∈ segment * {['/']}) :
    u ++ part ∈ segment * {['/']} := by
  obtain ⟨a, ha, b, hb, rfl⟩ := Language.mem_mul.mp hpart
  rw [← List.append_assoc]
  exact Language.append_mem_mul (by simpa [hu] using ha) hb

/-- Whole segments are none, or begin with a segment and its slash. -/
theorem anyDepth_cases {w : List Char} (hw : w ∈ Token.anyDepth.language) :
    w = [] ∨ ∃ part ∈ segment * {['/']}, ∃ v ∈ Token.anyDepth.language, part ++ v = w := by
  obtain ⟨parts, rfl, hparts⟩ := Language.mem_kstar.mp hw
  cases parts with
  | nil => exact .inl rfl
  | cons part parts =>
    obtain ⟨hpart, hrest⟩ := List.forall_mem_cons.mp hparts
    exact .inr ⟨part, hpart, parts.flatten, Language.mem_kstar.mpr ⟨parts, rfl, hrest⟩, rfl⟩

/-- Any text is a number of whole segments, and then part of one. -/
theorem exists_segments (w : List Char) : ∃ u ∈ Token.anyDepth.language, ∃ v, '/' ∉ v ∧ u ++ v = w := by
  induction w with
  | nil => exact ⟨[], Language.nil_mem_kstar _, [], by simp, rfl⟩
  | cons c w ih =>
    obtain ⟨u, hu, v, hv, rfl⟩ := ih
    by_cases hc : c = '/'
    · have hslash : ['/'] ∈ segment * {['/']} := Language.append_mem_mul (a := []) (by simp) rfl
      exact ⟨['/'] ++ u, append_mem_anyDepth hslash hu, v, hv, by simp [hc]⟩
    · have hc' : '/' ∉ [c] := by simpa using Ne.symm hc
      rcases anyDepth_cases hu with rfl | ⟨part, hpart, rest, hrest, rfl⟩
      · exact ⟨[], Language.nil_mem_kstar _, c :: v, by simpa [hv] using hc', rfl⟩
      · exact ⟨[c] ++ part ++ rest, append_mem_anyDepth (append_mem_part hc' hpart) hrest, v, hv, by simp⟩

/-- Begins with what may also take the end of a segment. -/
def absorbs : List Item → Bool
  | .token .star :: _ | .token .anyText :: _ => true
  | .token .anyDepth :: rest => absorbs rest
  | _ => false

theorem append_mem_of_absorbs {items : List Item} (h : absorbs items = true) {u v : List Char} (hu : '/' ∉ u)
    (hv : v ∈ spelled Item.language items) : u ++ v ∈ spelled Item.language items := by
  fun_induction absorbs items generalizing u v with
  | case1 rest =>
    obtain ⟨a, ha, b, hb, rfl⟩ := mem_spelled_cons.mp hv
    have hua : '/' ∉ u ++ a := by simpa [hu] using Token.mem_star.mp ha
    rw [← List.append_assoc]
    exact append_mem_spelled (Token.mem_star.mpr hua) hb
  | case2 rest =>
    obtain ⟨a, -, b, hb, rfl⟩ := mem_spelled_cons.mp hv
    rw [← List.append_assoc]
    exact append_mem_spelled Token.mem_anyText hb
  | case3 rest ih =>
    obtain ⟨a, ha, b, hb, rfl⟩ := mem_spelled_cons.mp hv
    rcases anyDepth_cases ha with rfl | ⟨part, hpart, parts, hparts, rfl⟩
    · rw [List.nil_append]
      exact append_mem_spelled (i := Item.token .anyDepth) (u := []) ha (ih h hu hb)
    · have hmem := append_mem_anyDepth (append_mem_part hu hpart) hparts
      rw [← List.append_assoc, ← List.append_assoc]
      exact append_mem_spelled (i := Item.token .anyDepth) hmem hb
  | case4 => simp at h

/-- After every `**/` comes what may take the end of a segment, and no alternative has a wildcard. -/
def aligned : List Item → Bool
  | [] => true
  | .token .anyDepth :: rest => absorbs rest && aligned rest
  | .token _ :: rest => aligned rest
  | .oneOf words :: rest => words.all (·.all fun c => c != '*' && c != '?') && aligned rest

theorem mem_plain_word {word w : List Char} (h : word.all (fun c => c != '*' && c != '?') = true) :
    w ∈ spelled Token.language (readTokens word) ↔ w = word := by
  fun_induction readTokens word generalizing w with
  | case1 => simp
  | case2 | case3 | case4 | case5 => simp at h
  | case6 c cs _ _ _ _ ih =>
    have hrest (v : List Char) := ih (w := v) (by simp_all)
    simp [mem_spelled_cons, hrest, eq_comm]

theorem Item.language_of_aligned {i : Item} {rest : List Item} (h : aligned (i :: rest) = true)
    (hdepth : i ≠ .token .anyDepth) {w : List Char} (hw : '\n' ∉ w) : w ∈ i.piece.language ↔ w ∈ i.language := by
  cases i with
  | oneOf words =>
    rw [aligned, Bool.and_eq_true] at h
    have hplain := List.all_eq_true.mp h.1
    rw [piece, Lib.Piece.mem_language_oneOf]
    constructor
    · intro hmem
      exact ⟨w, hmem, (mem_plain_word (hplain w hmem)).mpr rfl⟩
    · rintro ⟨word, hmem, hspelled⟩
      rw [mem_plain_word (hplain word hmem)] at hspelled
      rwa [hspelled]
  | token t =>
    by_cases ht : t.deep = true
    · obtain rfl : t = .anyText := by cases t <;> simp_all [Token.deep]
      refine iff_of_true (Lib.Piece.mem_language_many.mpr fun c hc => ?_) Token.mem_anyText
      exact bne_iff_ne.mpr fun heq => hw (heq ▸ hc)
    · rw [Item.language_piece fun s hs => by simp_all]
      rfl

theorem mem_spelled_aligned {items : List Item} (h : aligned items = true) {w : List Char} (hw : '\n' ∉ w) :
    w ∈ spelled (Piece.language ∘ Item.piece) items ↔ w ∈ spelled Item.language items := by
  induction items generalizing w with
  | nil => rfl
  | cons i rest ih =>
    have hrest : aligned rest = true := by
      cases i with
      | token t => cases t <;> simp_all [aligned]
      | oneOf words => simp_all [aligned]
    constructor
    · intro hmem
      obtain ⟨u, hu, v, hv, rfl⟩ := mem_spelled_cons.mp hmem
      simp only [List.mem_append, not_or] at hw
      have hv := (ih hrest hw.2).mp hv
      by_cases hdepth : i = .token .anyDepth
      · -- What stands for `**/` may end within a segment, and the next item takes the rest of it.
        subst hdepth
        obtain ⟨whole, hwhole, part, hpart, rfl⟩ := exists_segments u
        have habsorbs : absorbs rest = true := by simp_all [aligned]
        rw [List.append_assoc]
        exact append_mem_spelled (i := Item.token .anyDepth) hwhole (append_mem_of_absorbs habsorbs hpart hv)
      · exact append_mem_spelled ((Item.language_of_aligned h hdepth hw.1).mp hu) hv
    · intro hmem
      obtain ⟨u, hu, v, hv, rfl⟩ := mem_spelled_cons.mp hmem
      simp only [List.mem_append, not_or] at hw
      have hv := (ih hrest hw.2).mpr hv
      by_cases hdepth : i = .token .anyDepth
      · subst hdepth
        refine append_mem_spelled (Lib.Piece.mem_language_many.mpr fun c hc => ?_) hv
        exact bne_iff_ne.mpr fun heq => hw.1 (heq ▸ hc)
      · exact append_mem_spelled ((Item.language_of_aligned h hdepth hw.1).mpr hu) hv

/-- Where the code reads a glob as documented, on one path. -/
def Fits (glob path : List Char) : Prop :=
  if globHasMeta glob then '\n' ∉ path ∧ aligned (readItems 0 glob) = true else path.count '/' = glob.count '/'

theorem documented_of_fits {glob : Glob} {path : String} (h : Fits glob.text.toList path.toList) :
    globMatch path glob = true ↔ path.toList ∈ documented glob.text.toList := by
  unfold Fits at h
  split at h
  · next hmeta =>
    rw [globMatch_regex path glob hmeta, documented, ← mem_spelled_aligned h.2 h.1]
    constructor
    · rintro ⟨w, hw, hpath | hpath⟩
      · rwa [hpath]
      · exact absurd (by simp [hpath]) h.1
    · exact fun hmem => ⟨_, hmem, .inl rfl⟩
  · next hmeta => exact fnmatch_documented_of_count (by simpa using hmeta) h

/-- On a path of one line, the globs of the boundaries file that go by way of `re` are read as
documented. -/
theorem boundaries_aligned : ∀ rule ∈ boundaries.autonomousSafe ++ boundaries.humanReviewRequired ++ boundaries.immutable,
    ∀ glob ∈ rule.pathGlob :: rule.exclude, globHasMeta glob.text.toList = true →
      aligned (readItems 0 glob.text.toList) = true := by
  decide +kernel

end Occp.Evaluation
