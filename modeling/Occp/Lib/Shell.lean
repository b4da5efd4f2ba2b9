import Mathlib.Data.List.Basic

/-!
# Command words of a POSIX shell

A scanner reads a script character by character and notes every word that stands where the name of a command does:
after separators and reserved words, in groups and function bodies, and in substitutions wherever they nest. Escapes in
backquotes and here-documents that a substitution cuts off are not followed; they count as words that are not known.
-/

namespace Occp.Lib.Shell

/-! ## Words -/

structure Word where
  /-- With the quotes removed. -/
  text : List Char := []
  quoted : Bool := false
  /-- Expansions and patterns: what the word is shows when the shell runs. -/
  dynamic : Bool := false
  assigns : Bool := false
  deriving DecidableEq

def isNameChar (c : Char) : Bool := c.isAlphanum || c = '_'

/-- What may stand before the sign of an assignment. -/
def isName : List Char → Bool
  | [] => false
  | c :: cs => isNameChar c && !c.isDigit && cs.all isNameChar

namespace Word

def add (w : Word) (c : Char) (quoted dynamic : Bool) : Word where
  text := w.text ++ [c]
  quoted := w.quoted || quoted
  dynamic := w.dynamic || dynamic
  assigns := w.assigns || (c = '=' && !quoted && !w.quoted && !w.dynamic && isName w.text)

/-- The word as it stands, and not quoted. -/
def reads (w : Word) (name : String) : Bool := !w.quoted && !w.dynamic && w.text = name.toList

/-- A word that is known before the shell runs. -/
def literal (w : Word) : Option (List Char) := if w.dynamic then none else some w.text

end Word

/-- After these a command follows. -/
def openers : List String := ["if", "then", "else", "elif", "while", "until", "do", "\x7b", "!"]

/-- These end a compound command. -/
def closers : List String := ["fi", "done", "esac", "\x7d"]

def reserved : List String := "for" :: "case" :: openers ++ closers

/-! ## The scanner -/

/-- What the next word is. -/
inductive Position where
  | command
  | argument
  | forName
  | forIn
  | caseWord
  | caseIn
  | pattern
  deriving DecidableEq

/-- What the characters just read leave open. -/
inductive Lex where
  | plain
  | comment
  | single
  | backslash
  | dollar
  | dollarParen
  | semicolon
  | less
  | greater
  | here
  deriving DecidableEq

inductive Quote where
  | double
  | brace
  | arith (depth : Nat)
  deriving DecidableEq

structure HereDoc where
  delimiter : List Char
  quoted : Bool
  strip : Bool

/-- What a redirection waits for. -/
inductive Target where
  | file
  | here (strip : Bool)

inductive Paren where
  | subshell
  | function

inductive LevelKind where
  | script
  | parens
  | backquotes
  deriving DecidableEq

/-- A script, or a substitution in it. -/
structure Level where
  kind : LevelKind
  position : Position := .command
  word : Option Word := none
  quotes : List Quote := []
  target : Option Target := none
  parens : List Paren := []
  /-- The here-documents that begin at the next line, and the one that is read, with its line. -/
  pending : List HereDoc := []
  body : Option (HereDoc × List Char) := none

structure State where
  level : Level := { kind := .script }
  outer : List Level := []
  lex : Lex := .plain
  commands : List Word := []

namespace State

variable (s : State)

def setPosition (position : Position) : State := { s with level := { s.level with position } }

def setLex (lex : Lex) : State := { s with lex }

def setQuotes (quotes : List Quote) : State := { s with level := { s.level with quotes } }

def setTarget (target : Option Target) : State := { s with level := { s.level with target } }

def emit (w : Word) : State := { s with commands := s.commands ++ [w] }

/-- What follows may run anything. -/
def emitUnknown : State := s.emit { dynamic := true }

/-- A character of the word, or of the here-document. -/
def add (c : Char) (quoted dynamic : Bool) : State :=
  match s.level.body with
  | some (doc, line) => { s with level := { s.level with body := some (doc, line ++ [c]) } }
  | none => { s with level := { s.level with word := some ((s.level.word.getD {}).add c quoted dynamic) } }

/-- A quote or an expansion begins: there is a word, though it may be empty. -/
def touch (quoted dynamic : Bool) : State :=
  match s.level.body with
  | some _ => s
  | none =>
    let w := s.level.word.getD {}
    { s with level := { s.level with word := some { w with quoted := w.quoted || quoted, dynamic := w.dynamic || dynamic } } }

/-- What a word in the place of a command does. -/
def commandWord (w : Word) : State :=
  if openers.any w.reads then s.setPosition .command
  else if closers.any w.reads then s.setPosition .argument
  else if w.reads "for" then s.setPosition .forName
  else if w.reads "case" then s.setPosition .caseWord
  else if w.assigns then s
  else (s.setPosition .argument).emit w

/-- The word ends. -/
def finishWord : State :=
  match s.level.word with
  | none => s
  | some w =>
    let s := { s with level := { s.level with word := none } }
    match s.level.target with
    | some .file => s.setTarget none
    | some (.here strip) =>
      let doc : HereDoc := { delimiter := w.text, quoted := w.quoted, strip }
      { s with level := { s.level with target := none, pending := s.level.pending ++ [doc] } }
    | none =>
      match s.level.position with
      | .command => s.commandWord w
      | .argument => s
      | .forName => s.setPosition .forIn
      | .forIn => s.setPosition (if w.reads "do" then .command else .argument)
      | .caseWord => s.setPosition .caseIn
      | .caseIn => s.setPosition .pattern
      | .pattern => if w.reads "esac" then s.setPosition .argument else s

/-- A substitution begins. -/
def enter (kind : LevelKind) : State :=
  let s := s.touch false true
  { s with level := { kind }, outer := s.level :: s.outer, lex := .plain }

/-- A dollar sign that nothing follows. -/
def flush : State :=
  match s.lex with
  | .dollar => s.add '$' true false
  | _ => s

/-- A substitution ends. -/
def leave : State :=
  let s := s.flush.finishWord
  let s := if s.level.pending.isEmpty then s else s.emitUnknown
  match s.outer with
  | level :: outer => { s with level, outer, lex := .plain }
  | [] => s

/-- The here-document that comes next, if there is one. -/
def nextBody : State :=
  match s.level.pending with
  | doc :: pending => { s with level := { s.level with pending, body := some (doc, []) } }
  | [] => { s with level := { s.level with body := none } }

/-- A line ends: a here-document begins, or a new command. -/
def newline : State :=
  let s := s.finishWord.setTarget none
  let s := if s.outer.all (·.pending.isEmpty) then s else s.emitUnknown
  let s := match s.level.position with
    | .forIn | .caseIn | .pattern => s
    | _ => s.setPosition .command
  s.nextBody

/-- A line of a here-document ends, and with it perhaps the document. -/
def bodyLine (doc : HereDoc) (line : List Char) : State :=
  let line := if doc.strip then line.dropWhile (· = '\t') else line
  if line ≠ doc.delimiter then { s with level := { s.level with body := some (doc, []) } } else s.nextBody

def openParen : State :=
  let s := s.finishWord.setTarget none
  match s.level.position with
  | .pattern => s
  | .argument => { s with level := { s.level with parens := .function :: s.level.parens, position := .command } }
  | _ => { s with level := { s.level with parens := .subshell :: s.level.parens, position := .command } }

def closeParen : State :=
  let s := s.finishWord
  if s.level.position = .pattern then s.setPosition .command
  else
    match s.level.parens with
    | .function :: parens => { s with level := { s.level with parens, position := .command } }
    | .subshell :: parens => { s with level := { s.level with parens, position := .argument } }
    | [] => if s.level.kind = .parens then s.leave else s.setPosition .command

/-- A number right before the operator belongs to it. -/
def redirect (lex : Lex) : State :=
  let s := match s.level.word with
    | some w => if !w.quoted && !w.dynamic && w.text.all Char.isDigit then { s with level := { s.level with word := none } }
      else s.finishWord
    | none => s
  (s.setTarget (some .file)).setLex lex

/-- A character outside of quotes. -/
def bare (c : Char) : State :=
  match c with
  | ' ' | '\t' => s.finishWord
  | '\n' => s.newline
  | ';' => ((s.finishWord.setTarget none).setPosition .command).setLex .semicolon
  | '&' | '|' =>
    let s := s.finishWord.setTarget none
    if s.level.position = .pattern then s else s.setPosition .command
  | '(' => s.openParen
  | ')' => s.closeParen
  | '<' => s.redirect .less
  | '>' => s.redirect .greater
  | '#' => if s.level.word.isNone then s.setLex .comment else s.add c false false
  | '\x27' => (s.touch true false).setLex .single
  | '"' => (s.touch true false).setQuotes [.double]
  | '$' => s.setLex .dollar
  | '\x60' => s.enter .backquotes
  | '\\' => s.setLex .backslash
  | '*' | '?' | '[' => s.add c false true
  | '~' => s.add c false s.level.word.isNone
  | _ => s.add c false false

/-- A character in quotes, in a parameter or in a sum. -/
def inQuotes (quote : Quote) (rest : List Quote) (c : Char) : State :=
  match c with
  | '$' => s.setLex .dollar
  | '\x60' => s.enter .backquotes
  | '\\' => s.setLex .backslash
  | '"' => if quote = .double then s.setQuotes rest else s.setQuotes (.double :: quote :: rest)
  | '\x27' => if quote = .brace ∧ .double ∉ rest then s.setLex .single else s.add c true false
  | _ =>
    match quote with
    | .double => s.add c true false
    | .brace => if c = '\x7d' then s.setQuotes rest else s.add c true false
    | .arith depth =>
      if c = '(' then s.setQuotes (.arith (depth + 1) :: rest)
      else if c = ')' then s.setQuotes (if depth ≤ 1 then rest else .arith (depth - 1) :: rest)
      else s.add c true false

def inBody (doc : HereDoc) (line : List Char) (c : Char) : State :=
  if c = '\n' then s.bodyLine doc line
  else if doc.quoted then s.add c true false
  else
    match c with
    | '$' => s.setLex .dollar
    | '\x60' => s.enter .backquotes
    | '\\' => s.setLex .backslash
    | _ => s.add c true false

/-- A character that nothing before it has a claim on. -/
def read (c : Char) : State :=
  match s.level.quotes with
  | quote :: rest => s.inQuotes quote rest c
  | [] =>
    match s.level.body with
    | some (doc, line) => s.inBody doc line c
    | none => s.bare c

def inBackquotes : Bool := s.level.kind = .backquotes || s.outer.any (·.kind = .backquotes)

/-- In double quotes and here-documents a backslash quotes only these. -/
def escapes (c : Char) : Bool :=
  "$\x60\"\\".toList.contains c || (s.level.body.isNone && s.level.quotes.all (· = .brace))

def escaped (c : Char) : State :=
  let s := s.setLex .plain
  if c = '\n' then s
  else
    let s := if s.escapes c then s else s.add '\\' true false
    let s := s.add c true false
    if s.inBackquotes && "$\x60\\".toList.contains c then s.emitUnknown else s

/-- What follows a dollar sign. -/
def expansion (c : Char) : State :=
  let s := s.setLex .plain
  if c = '(' then (s.touch false true).setLex .dollarParen
  else if c = '\x7b' then (s.touch false true).setQuotes (.brace :: s.level.quotes)
  else if isNameChar c || "@*#?$!-".toList.contains c then (s.touch false true).add c true true
  else (s.add '$' true false).read c

def step (c : Char) : State :=
  if c = '\x60' ∧ s.level.kind = .backquotes ∧ s.lex ≠ .backslash then s.leave
  else
    match s.lex with
    | .plain => s.read c
    | .comment => if c = '\n' then (s.setLex .plain).read c else s
    | .single => if c = '\x27' then s.setLex .plain else s.add c true false
    | .backslash => s.escaped c
    | .dollar => s.expansion c
    | .dollarParen =>
      if c = '(' then (s.setLex .plain).setQuotes (.arith 2 :: s.level.quotes) else (s.enter .parens).read c
    | .semicolon => if c = ';' ∨ c = '&' then (s.setPosition .pattern).setLex .plain else (s.setLex .plain).read c
    | .less =>
      if c = '<' then (s.setTarget (some (.here false))).setLex .here
      else if c = '&' ∨ c = '>' then s.setLex .plain
      else (s.setLex .plain).read c
    | .greater => if c = '&' ∨ c = '>' ∨ c = '|' then s.setLex .plain else (s.setLex .plain).read c
    | .here =>
      if c = '-' then (s.setTarget (some (.here true))).setLex .plain
      else if c = '<' then (s.setTarget (some .file)).setLex .plain
      else (s.setLex .plain).read c

/-- The script ends. -/
def finish : State :=
  let s := if s.lex = .backslash then s.add '\\' true false else s.flush
  s.finishWord

end State

/-- The command words of a script, in the order in which they end. -/
def commandWords (script : List Char) : List Word := (script.foldl State.step {}).finish.commands

example : (commandWords "ls -l | cat 'a;b' \"$(id -u)\"; for f in *; do x=1 rm $f; done # end".toList).map
    (fun w => String.ofList w.text) = ["ls", "cat", "id", "rm"] := by decide +kernel

example : (commandWords "case $x in a|b) r\\m y;; esac <<E && $cmd\nit's $(id)\nE\nlast".toList).map Word.literal =
    [some "rm".toList, none, some "id".toList, some "last".toList] := by decide +kernel

/-! ## Words stay noted -/

namespace State

variable {s : State} {c : Char}

/-- A state that has noted at least as much. -/
def Notes (s t : State) : Prop := s.commands <+: t.commands

theorem Notes.refl (s : State) : Notes s s := List.prefix_rfl

theorem Notes.trans {t u : State} (h : Notes s t) (h' : Notes t u) : Notes s u := List.IsPrefix.trans h h'

theorem notes_emit (w : Word) : Notes s (s.emit w) := List.prefix_append _ _

theorem notes_add (quoted dynamic : Bool) : Notes s (s.add c quoted dynamic) := by
  unfold add
  split <;> exact Notes.refl s

theorem notes_touch (quoted dynamic : Bool) : Notes s (s.touch quoted dynamic) := by
  unfold touch
  split <;> exact Notes.refl s

theorem notes_commandWord (w : Word) : Notes s (s.commandWord w) := by
  unfold commandWord
  repeat' split
  all_goals first
    | exact Notes.refl s
    | exact notes_emit w

theorem notes_finishWord : Notes s s.finishWord := by
  unfold finishWord
  split
  · exact Notes.refl s
  · next w _ =>
    dsimp only
    split
    · exact Notes.refl s
    · exact Notes.refl s
    · split
      · exact notes_commandWord (s := { s with level := { s.level with word := none } }) w
      · exact Notes.refl s
      · exact Notes.refl s
      · exact Notes.refl s
      · exact Notes.refl s
      · exact Notes.refl s
      · split <;> exact Notes.refl s

theorem notes_enter (kind : LevelKind) : Notes s (s.enter kind) := notes_touch false true

theorem notes_flush : Notes s s.flush := by
  unfold flush
  split
  · exact notes_add true false
  · exact Notes.refl s

theorem notes_leave : Notes s s.leave := by
  have hfinish : Notes s s.flush.finishWord := notes_flush.trans notes_finishWord
  unfold leave
  dsimp only
  have hunknown : Notes s (if s.flush.finishWord.level.pending.isEmpty then s.flush.finishWord
      else s.flush.finishWord.emitUnknown) := by
    split
    · exact hfinish
    · exact hfinish.trans (notes_emit _)
  split <;> exact hunknown

theorem notes_nextBody : Notes s s.nextBody := by
  unfold nextBody
  split <;> exact Notes.refl s

theorem notes_newline : Notes s s.newline := by
  have hfinish : Notes s (s.finishWord.setTarget none) := notes_finishWord
  unfold newline
  dsimp only
  generalize s.finishWord.setTarget none = t at hfinish ⊢
  have hunknown : Notes s (if t.outer.all (·.pending.isEmpty) then t else t.emitUnknown) := by
    split
    · exact hfinish
    · exact hfinish.trans (notes_emit _)
  generalize (if t.outer.all (·.pending.isEmpty) then t else t.emitUnknown) = u at hunknown ⊢
  refine Notes.trans ?_ notes_nextBody
  split <;> exact hunknown

theorem notes_bodyLine (doc : HereDoc) (line : List Char) : Notes s (s.bodyLine doc line) := by
  unfold bodyLine
  dsimp only
  generalize (if doc.strip then line.dropWhile (· = '\t') else line) = line'
  split
  · exact Notes.refl s
  · exact notes_nextBody

theorem notes_openParen : Notes s s.openParen := by
  have hfinish : Notes s (s.finishWord.setTarget none) := notes_finishWord
  unfold openParen
  dsimp only
  split <;> exact hfinish

theorem notes_closeParen : Notes s s.closeParen := by
  have hfinish : Notes s s.finishWord := notes_finishWord
  unfold closeParen
  dsimp only
  split
  · exact hfinish
  · split
    · exact hfinish
    · exact hfinish
    · split
      · exact hfinish.trans notes_leave
      · exact hfinish

theorem notes_redirect (lex : Lex) : Notes s (s.redirect lex) := by
  unfold redirect
  dsimp only
  split
  · split
    · exact Notes.refl s
    · exact notes_finishWord
  · exact Notes.refl s

theorem notes_bare : Notes s (s.bare c) := by
  have hfinish : Notes s s.finishWord := notes_finishWord
  unfold bare
  split
  · exact hfinish
  · exact hfinish
  · exact notes_newline
  · exact hfinish
  · dsimp only
    split <;> exact hfinish
  · dsimp only
    split <;> exact hfinish
  · exact notes_openParen
  · exact notes_closeParen
  · exact notes_redirect .less
  · exact notes_redirect .greater
  · split
    · exact Notes.refl s
    · exact notes_add false false
  · exact notes_touch true false
  · exact notes_touch true false
  · exact Notes.refl s
  · exact notes_enter .backquotes
  · exact Notes.refl s
  · exact notes_add false true
  · exact notes_add false true
  · exact notes_add false true
  · exact notes_add false _
  · exact notes_add false false

theorem notes_inQuotes (quote : Quote) (rest : List Quote) : Notes s (s.inQuotes quote rest c) := by
  have hadd : Notes s (s.add c true false) := notes_add true false
  unfold inQuotes
  split
  · exact Notes.refl s
  · exact notes_enter .backquotes
  · exact Notes.refl s
  · split <;> exact Notes.refl s
  · split
    · exact Notes.refl s
    · exact notes_add true false
  · split
    · exact hadd
    · split
      · exact Notes.refl s
      · exact hadd
    · split
      · exact Notes.refl s
      · split
        · exact Notes.refl s
        · exact hadd

theorem notes_inBody (doc : HereDoc) (line : List Char) : Notes s (s.inBody doc line c) := by
  unfold inBody
  split
  · exact notes_bodyLine doc line
  · split
    · exact notes_add true false
    · split
      · exact Notes.refl s
      · exact notes_enter .backquotes
      · exact Notes.refl s
      · exact notes_add true false

theorem notes_read : Notes s (s.read c) := by
  unfold read
  split
  · exact notes_inQuotes ..
  · split
    · exact notes_inBody ..
    · exact notes_bare

theorem notes_escaped : Notes s (s.escaped c) := by
  unfold escaped
  dsimp only
  split
  · exact Notes.refl s
  · have hslash : Notes s (if (s.setLex .plain).escapes c then s.setLex .plain else (s.setLex .plain).add '\\' true false) := by
      split
      · exact Notes.refl s
      · exact notes_add (s := s.setLex .plain) true false
    generalize (if (s.setLex .plain).escapes c then s.setLex .plain else (s.setLex .plain).add '\\' true false) = t at hslash ⊢
    have hadd : Notes s (t.add c true false) := hslash.trans (notes_add true false)
    split
    · exact hadd.trans (notes_emit _)
    · exact hadd

theorem notes_expansion : Notes s (s.expansion c) := by
  have htouch : Notes s ((s.setLex .plain).touch false true) := notes_touch (s := s.setLex .plain) false true
  unfold expansion
  dsimp only
  split
  · exact htouch
  · split
    · exact htouch
    · split
      · exact htouch.trans (notes_add true true)
      · have hadd : Notes s ((s.setLex .plain).add '$' true false) := notes_add (s := s.setLex .plain) true false
        exact hadd.trans notes_read

theorem notes_step : Notes s (s.step c) := by
  have hread : Notes s ((s.setLex .plain).read c) := notes_read (s := s.setLex .plain)
  unfold step
  split
  · exact notes_leave
  · split
    · exact notes_read
    · split
      · exact hread
      · exact Notes.refl s
    · split
      · exact Notes.refl s
      · exact notes_add true false
    · exact notes_escaped
    · exact notes_expansion
    · split
      · exact Notes.refl s
      · exact (notes_enter .parens).trans notes_read
    · split
      · exact Notes.refl s
      · exact hread
    · split
      · exact Notes.refl s
      · split
        · exact Notes.refl s
        · exact hread
    · split
      · exact Notes.refl s
      · exact hread
    · split
      · exact Notes.refl s
      · split
        · exact Notes.refl s
        · exact hread

theorem notes_foldl (script : List Char) : Notes s (script.foldl step s) := by
  induction script generalizing s with
  | nil => exact Notes.refl s
  | cons c script ih => exact notes_step.trans ih

theorem notes_finish : Notes s s.finish := by
  unfold finish
  dsimp only
  refine Notes.trans ?_ notes_finishWord
  split
  · exact notes_add true false
  · exact notes_flush

end State

/-! ## The first word -/

/-- Where a name has been read, and nothing else. -/
def reading (name : List Char) : State := { level := { kind := .script, word := some { text := name } } }

theorem isNameChar.ne {c d : Char} (hc : isNameChar c = true) (hd : isNameChar d = false) : c ≠ d := by
  rintro rfl
  rw [hc] at hd
  cases hd

theorem bare_nameChar {s : State} {c : Char} (h : isNameChar c = true) : s.bare c = s.add c false false := by
  unfold State.bare
  split <;> first
    | rfl
    | exact absurd h (by decide)

theorem step_nameChar {s : State} {c : Char} (h : isNameChar c = true) (hlex : s.lex = .plain) (hquotes : s.level.quotes = [])
    (hbody : s.level.body = none) : s.step c = s.add c false false := by
  have hne : c ≠ '\x60' := isNameChar.ne h (by decide)
  unfold State.step State.read
  rw [if_neg fun hboth => hne hboth.1, hlex]
  simp only [hquotes, hbody]
  exact bare_nameChar h

theorem foldl_nameChars {before name : List Char} (h : ∀ c ∈ name, isNameChar c = true) :
    name.foldl State.step (reading before) = reading (before ++ name) := by
  induction name generalizing before with
  | nil => simp
  | cons c name ih =>
    have hc : isNameChar c = true := h c List.mem_cons_self
    have hne : c ≠ '=' := isNameChar.ne hc (by decide)
    have hstep : (reading before).step c = reading (before ++ [c]) := by
      rw [step_nameChar hc rfl rfl rfl]
      simp [State.add, reading, Word.add, hne]
    rw [List.foldl_cons, hstep, ih fun d hd => h d (List.mem_cons_of_mem c hd)]
    simp

theorem foldl_name {name : List Char} (hne : name ≠ []) (h : ∀ c ∈ name, isNameChar c = true) :
    name.foldl State.step {} = reading name := by
  cases name with
  | nil => exact absurd rfl hne
  | cons c name =>
    have hc : isNameChar c = true := h c List.mem_cons_self
    have heq : c ≠ '=' := isNameChar.ne hc (by decide)
    have hstep : State.step {} c = reading [c] := by
      rw [step_nameChar hc rfl rfl rfl]
      simp [State.add, reading, Word.add, heq]
    rw [List.foldl_cons, hstep, foldl_nameChars fun d hd => h d (List.mem_cons_of_mem c hd)]
    rfl

/-- A word that is neither reserved nor an assignment names a command. -/
theorem commandWord_of_not_reserved {s : State} {w : Word} (hassigns : w.assigns = false)
    (h : String.ofList w.text ∉ reserved) : s.commandWord w = (s.setPosition .argument).emit w := by
  have hreads : ∀ names : List String, (∀ name ∈ names, name ∈ reserved) → names.any w.reads = false := by
    intro names hnames
    rw [List.any_eq_false]
    intro name hname hreads
    simp only [Word.reads, Bool.and_eq_true, decide_eq_true_eq] at hreads
    apply h
    rw [hreads.2, String.ofList_toList]
    exact hnames name hname
  have hopeners := hreads openers (by decide)
  have hclosers := hreads closers (by decide)
  have hfor := hreads ["for"] (by decide)
  have hcase := hreads ["case"] (by decide)
  simp only [List.any_cons, List.any_nil, Bool.or_false] at hfor hcase
  unfold State.commandWord
  simp [hopeners, hclosers, hfor, hcase, hassigns]

theorem finishWord_reading {name : List Char} (h : String.ofList name ∉ reserved) :
    (reading name).finishWord = { level := { kind := .script, position := .argument }, commands := [{ text := name }] } := by
  have hcommand := commandWord_of_not_reserved (s := { level := { kind := .script } }) (w := { text := name }) rfl h
  change State.commandWord { level := { kind := .script } } { text := name } = _
  rw [hcommand]
  rfl

theorem commandWords_name {name : List Char} (hne : name ≠ []) (hname : ∀ c ∈ name, isNameChar c = true)
    (hreserved : String.ofList name ∉ reserved) : commandWords name = [{ text := name }] := by
  unfold commandWords
  rw [foldl_name hne hname]
  change (reading name).finishWord.commands = _
  rw [finishWord_reading hreserved]

/-- **A script that begins with a name, and a blank or nothing after it, runs a command of that name first.** -/
theorem commandWords_of_name {name rest : List Char} (hne : name ≠ []) (hname : ∀ c ∈ name, isNameChar c = true)
    (hreserved : String.ofList name ∉ reserved) (hrest : ∀ c, rest.head? = some c → c = ' ' ∨ c = '\t' ∨ c = '\n') :
    ∃ more, commandWords (name ++ rest) = { text := name } :: more := by
  cases rest with
  | nil =>
    refine ⟨[], ?_⟩
    rw [List.append_nil, commandWords_name hne hname hreserved]
  | cons c rest =>
    unfold commandWords
    rw [List.foldl_append, foldl_name hne hname]
    have hstep : ((reading name).step c).commands = [{ text := name }] := by
      rcases hrest c rfl with rfl | rfl | rfl
      · change (reading name).finishWord.commands = _
        rw [finishWord_reading hreserved]
      · change (reading name).finishWord.commands = _
        rw [finishWord_reading hreserved]
      · change (reading name).newline.commands = _
        unfold State.newline
        rw [finishWord_reading hreserved]
        rfl
    have hnotes : State.Notes ((reading name).step c) (rest.foldl State.step ((reading name).step c)).finish :=
      (State.notes_foldl rest).trans State.notes_finish
    obtain ⟨more, hmore⟩ := hnotes
    rw [hstep] at hmore
    exact ⟨more, hmore.symm⟩

/-! ## Plain arguments -/

/-- What means nothing to the shell in an argument. -/
def isArgChar (c : Char) : Bool := isNameChar c || c = ' ' || c = '\t' || "-./,:=+@%".toList.contains c

/-- Between the arguments of a command, or in one. -/
structure InArguments (s : State) : Prop where
  lex : s.lex = .plain
  quotes : s.level.quotes = []
  body : s.level.body = none
  target : s.level.target = none
  position : s.level.position = .argument

theorem finishWord_arguments {s : State} (h : InArguments s) :
    InArguments s.finishWord ∧ s.finishWord.commands = s.commands := by
  unfold State.finishWord
  split
  · exact ⟨h, rfl⟩
  · simp only [h.target, h.position, and_true]
    exact ⟨h.lex, h.quotes, h.body, rfl, rfl⟩

theorem bare_argChar {s : State} {c : Char} (h : isArgChar c = true) : s.bare c = s.finishWord ∨ s.bare c = s.add c false false := by
  unfold State.bare
  split <;> first
    | exact .inl rfl
    | exact .inr rfl
    | exact absurd h (by decide)

theorem step_arguments {s : State} {c : Char} (hc : isArgChar c = true) (h : InArguments s) :
    InArguments (s.step c) ∧ (s.step c).commands = s.commands := by
  have hne : c ≠ '\x60' := by
    rintro rfl
    revert hc
    decide
  have hstep : s.step c = s.bare c := by
    unfold State.step State.read
    rw [if_neg fun hboth => hne hboth.1, h.lex]
    simp only [h.quotes, h.body]
  rw [hstep]
  rcases bare_argChar (s := s) hc with hfinish | hadd
  · rw [hfinish]
    exact finishWord_arguments h
  · rw [hadd]
    unfold State.add
    simp only [h.body, and_true]
    exact ⟨h.lex, h.quotes, rfl, h.target, h.position⟩

theorem foldl_arguments {rest : List Char} {s : State} (hrest : ∀ c ∈ rest, isArgChar c = true) (h : InArguments s) :
    InArguments (rest.foldl State.step s) ∧ (rest.foldl State.step s).commands = s.commands := by
  induction rest generalizing s with
  | nil => exact ⟨h, rfl⟩
  | cons c rest ih =>
    obtain ⟨hin, hsame⟩ := step_arguments (hrest c List.mem_cons_self) h
    obtain ⟨hin', hsame'⟩ := ih (fun d hd => hrest d (List.mem_cons_of_mem c hd)) hin
    exact ⟨hin', hsame'.trans hsame⟩

/-- A name with plain arguments is one command. -/
theorem commandWords_of_plain {name rest : List Char} (hne : name ≠ []) (hname : ∀ c ∈ name, isNameChar c = true)
    (hreserved : String.ofList name ∉ reserved) (hrest : ∀ c ∈ rest, isArgChar c = true)
    (hblank : ∀ c, rest.head? = some c → c = ' ' ∨ c = '\t') : commandWords (name ++ rest) = [{ text := name }] := by
  cases rest with
  | nil => rw [List.append_nil, commandWords_name hne hname hreserved]
  | cons c rest =>
    unfold commandWords
    rw [List.foldl_append, foldl_name hne hname]
    have hstep : (reading name).step c = (reading name).finishWord := by
      rcases hblank c rfl with rfl | rfl <;> rfl
    have hstart : InArguments (reading name).finishWord := by
      rw [finishWord_reading hreserved]
      exact ⟨rfl, rfl, rfl, rfl, rfl⟩
    obtain ⟨hin, hsame⟩ := foldl_arguments (fun d hd => hrest d (List.mem_cons_of_mem c hd)) hstart
    rw [List.foldl_cons, hstep]
    have hfinish : (rest.foldl State.step (reading name).finishWord).finish =
        (rest.foldl State.step (reading name).finishWord).finishWord := by
      unfold State.finish State.flush
      simp [hin.lex]
    rw [hfinish, (finishWord_arguments hin).2, hsame, finishWord_reading hreserved]

end Occp.Lib.Shell
