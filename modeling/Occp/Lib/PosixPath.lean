import Mathlib.Data.List.Basic
import Occp.Lib.Fields

/-!
# Paths of a POSIX system

`normpath` works on the text of a path, and `walk` on the directory that it leads to. An absolute path
is normalised to that directory, written out.
-/

namespace Occp.Lib.PosixPath

abbrev Name := List Char

def segments (path : List Char) : List Name := path.splitOn '/'

/-- One turn of the loop of `normpath`. -/
def push (absolute : Bool) (dir : List Name) (s : Name) : List Name :=
  if s = [] ∨ s = ['.'] then dir
  else if s ≠ ['.', '.'] ∨ (absolute = false ∧ dir = []) ∨ dir.getLast? = some ['.', '.'] then dir ++ [s]
  else dir.dropLast

/-- Two slashes at the start are kept, three are one. -/
def initialSlashes : List Char → Nat
  | '/' :: '/' :: '/' :: _ => 1
  | '/' :: '/' :: _ => 2
  | '/' :: _ => 1
  | _ => 0

def normpath (path : List Char) : List Char :=
  let slashes := initialSlashes path
  let dir := (segments path).foldl (push (slashes ≠ 0)) []
  let norm := List.replicate slashes '/' ++ ['/'].intercalate dir
  if norm = [] then ['.'] else norm

def join (a b : List Char) : List Char :=
  if b.head? = some '/' then b else if a = [] ∨ a.getLast? = some '/' then a ++ b else a ++ '/' :: b

def abspath (cwd path : List Char) : List Char := normpath (if path.head? = some '/' then path else join cwd path)

/-! ## Directories -/

/-- Where a segment leads from a directory. -/
def enter (dir : List Name) (s : Name) : List Name :=
  if s = [] ∨ s = ['.'] then dir else if s = ['.', '.'] then dir.dropLast else dir ++ [s]

def walk (dir : List Name) (path : List Char) : List Name := (segments path).foldl enter dir

def render (dir : List Name) : List Char := '/' :: ['/'].intercalate dir

structure IsName (s : Name) : Prop where
  ne_nil : s ≠ []
  ne_dot : s ≠ ['.']
  ne_dots : s ≠ ['.', '.']
  no_slash : '/' ∉ s

variable {dir : List Name} {s : Name} {path : List Char}

theorem names_enter (h : ∀ n ∈ dir, IsName n) (hs : '/' ∉ s) : ∀ n ∈ enter dir s, IsName n := by
  unfold enter
  split
  · exact h
  · next hskip =>
    rw [not_or] at hskip
    split
    · intro n hn
      exact h n ((List.dropLast_sublist dir).mem hn)
    · next hdots =>
      intro n hn
      rcases List.mem_append.mp hn with hn | hn
      · exact h n hn
      · rw [List.mem_singleton.mp hn]
        exact ⟨hskip.1, hskip.2, hdots, hs⟩

theorem push_eq_enter (h : ∀ n ∈ dir, IsName n) : push true dir s = enter dir s := by
  unfold push enter
  split
  · rfl
  · have hlast : dir.getLast? ≠ some ['.', '.'] := by
      intro hlast
      exact (h _ (List.mem_of_getLast? hlast)).ne_dots rfl
    simp [hlast]

theorem no_slash_segments : ∀ s ∈ segments path, '/' ∉ s :=
  fun _ hs => not_mem_of_mem_splitOn hs

theorem foldl_push_eq (ss : List Name) (hss : ∀ s ∈ ss, '/' ∉ s) (h : ∀ n ∈ dir, IsName n) :
    ss.foldl (push true) dir = ss.foldl enter dir := by
  induction ss generalizing dir with
  | nil => rfl
  | cons s ss ih =>
    have hs := hss s List.mem_cons_self
    rw [List.foldl_cons, List.foldl_cons, push_eq_enter h]
    exact ih (fun t ht => hss t (List.mem_cons_of_mem s ht)) (names_enter h hs)

theorem names_walk (h : ∀ n ∈ dir, IsName n) (path : List Char) : ∀ n ∈ walk dir path, IsName n := by
  have hall (ss : List Name) (hss : ∀ s ∈ ss, '/' ∉ s) : ∀ n ∈ ss.foldl enter dir, IsName n := by
    induction ss generalizing dir with
    | nil => exact h
    | cons s ss ih =>
      exact ih (names_enter h (hss s List.mem_cons_self)) fun t ht => hss t (List.mem_cons_of_mem s ht)
  exact hall (segments path) no_slash_segments

theorem walk_append (dir : List Name) (p q : List Char) : walk dir (p ++ '/' :: q) = walk (walk dir p) q := by
  unfold walk segments
  rw [List.splitOn_append_cons_self, List.foldl_append]

theorem walk_slash (dir : List Name) (path : List Char) : walk dir ('/' :: path) = walk dir path := by
  have happend := walk_append dir [] path
  rwa [List.nil_append] at happend

theorem walk_dropWhile_slash (dir : List Name) (path : List Char) : walk dir (path.dropWhile (· == '/')) = walk dir path := by
  induction path with
  | nil => rfl
  | cons c cs ih =>
    by_cases hc : c = '/'
    · subst hc
      rw [walk_slash, ← ih]
      simp
    · simp [hc]

/-- **An absolute path is normalised to the directory that it leads to.** -/
theorem normpath_eq_render (h : path.head? ≠ some '/') : normpath ('/' :: path) = render (walk [] ('/' :: path)) := by
  have hslashes : initialSlashes ('/' :: path) = 1 := by
    unfold initialSlashes
    split
    · rfl
    · next heq =>
      injection heq with _ heq
      simp [heq] at h
    · rfl
    · next hnot => exact absurd rfl (hnot path)
  have hdir : (segments ('/' :: path)).foldl (push true) [] = walk [] ('/' :: path) :=
    foldl_push_eq _ no_slash_segments (by simp)
  unfold normpath render
  simp [hslashes, hdir]

theorem foldl_enter_names (ss : List Name) (h : ∀ n ∈ ss, IsName n) : ss.foldl enter dir = dir ++ ss := by
  induction ss generalizing dir with
  | nil => simp
  | cons s ss ih =>
    have hs := h s List.mem_cons_self
    have henter : enter dir s = dir ++ [s] := by simp [enter, hs.ne_nil, hs.ne_dot, hs.ne_dots]
    rw [List.foldl_cons, henter, ih fun n hn => h n (List.mem_cons_of_mem s hn)]
    simp

/-- A directory that is written out leads to itself. -/
theorem walk_render (h : ∀ n ∈ dir, IsName n) : walk [] (render dir) = dir := by
  unfold render
  rw [walk_slash]
  by_cases hdir : dir = []
  · subst hdir
    rfl
  · unfold walk segments
    rw [List.splitOn_intercalate '/' (fun n hn => (h n hn).no_slash) hdir, foldl_enter_names dir h, List.nil_append]

/-! ## What a prefix of the text says -/

theorem render_cons (n : Name) (dir : List Name) : render (n :: dir) = (n :: dir).flatMap ('/' :: ·) := by
  induction dir generalizing n with
  | nil => simp [render]
  | cons m dir ih =>
    have hrest := ih m
    unfold render at hrest ⊢
    rw [List.intercalate_cons_cons, List.flatMap_cons, ← hrest]
    simp

theorem takeWhile_name {n : Name} (hn : '/' ∉ n) (rest : List Char) (hrest : rest = [] ∨ rest.head? = some '/') :
    (n ++ rest).takeWhile (· ≠ '/') = n := by
  rw [List.takeWhile_append_of_pos (by intro c hc; simp; rintro rfl; exact hn hc)]
  rcases hrest with rfl | hhead
  · simp
  · cases rest with
    | nil => simp
    | cons c cs =>
      simp at hhead
      simp [hhead]

theorem flatMap_slash (dir : List Name) : dir.flatMap ('/' :: ·) = [] ∨ (dir.flatMap ('/' :: ·)).head? = some '/' := by
  cases dir with
  | nil => exact .inl rfl
  | cons n dir => exact .inr rfl

/-- **A prefix of the text fixes all names but its last, which it may break off.** -/
theorem flatMap_isPrefix_iff {init dir : List Name} {last : Name} (hinit : ∀ n ∈ init, '/' ∉ n) (hlast : '/' ∉ last)
    (hdir : ∀ n ∈ dir, '/' ∉ n) :
    (init ++ [last]).flatMap ('/' :: ·) <+: dir.flatMap ('/' :: ·) ↔
      ∃ name rest, dir = init ++ name :: rest ∧ last <+: name := by
  induction init generalizing dir with
  | nil =>
    cases dir with
    | nil => simp
    | cons n dir =>
      simp only [List.nil_append, List.flatMap_cons, List.flatMap_nil, List.append_nil, List.cons_append,
        List.prefix_cons_inj, List.cons.injEq]
      have htake := takeWhile_name (hdir n List.mem_cons_self) _ (flatMap_slash dir)
      constructor
      · intro hprefix
        refine ⟨n, dir, ⟨rfl, rfl⟩, ?_⟩
        obtain ⟨t, ht⟩ := hprefix
        rw [← htake, ← ht, List.takeWhile_append_of_pos (by intro c hc; simp; rintro rfl; exact hlast hc)]
        exact List.prefix_append _ _
      · rintro ⟨name, rest, ⟨rfl, rfl⟩, hprefix⟩
        exact hprefix.trans (List.prefix_append _ _)
  | cons m init ih =>
    cases dir with
    | nil => simp
    | cons n dir =>
      have hn := hdir n List.mem_cons_self
      have hm := hinit m List.mem_cons_self
      have hrec := ih (fun k hk => hinit k (List.mem_cons_of_mem m hk)) fun k hk => hdir k (List.mem_cons_of_mem n hk)
      rw [List.cons_append, List.flatMap_cons, List.flatMap_cons, List.cons_append, List.cons_append, List.prefix_cons_inj]
      constructor
      · rintro ⟨t, ht⟩
        have hheads : ((init ++ [last]).flatMap ('/' :: ·) ++ t).head? = some '/' := by cases init <;> rfl
        rw [List.append_assoc] at ht
        have hsame : m = n := by
          rw [← takeWhile_name hm _ (.inr hheads), ht, takeWhile_name hn _ (flatMap_slash dir)]
        subst hsame
        obtain ⟨name, rest, rfl, hname⟩ := hrec.mp ⟨t, List.append_cancel_left ht⟩
        exact ⟨name, rest, rfl, hname⟩
      · rintro ⟨name, rest, heq, hname⟩
        rw [List.cons_append] at heq
        obtain ⟨rfl, rfl⟩ := List.cons.inj heq
        exact (List.prefix_append_right_inj n).mpr (hrec.mpr ⟨name, rest, rfl, hname⟩)

end Occp.Lib.PosixPath
