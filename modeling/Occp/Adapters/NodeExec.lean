import Mathlib.Data.List.Dedup
import Mathlib.Data.List.DropRight
import Occp.Lib.Shell
import Occp.Text

/-!
# Commands on the nodes (`adapters/mcp_bridge.py`)

`node.exec` looks at the first word of a command and hands the command to `ssh`, whose other end is a shell.
-/

namespace Occp.Adapters

open Lib Text

structure OccpNode where
  host : String
  port : Option Nat := none
  user : String
  sshKey : Option String := none

def occpNodes : List (String × OccpNode) :=
  [("imac", { host := "172.18.0.1", port := some 2222, user := "boss" }),
    ("mbp", { host := "172.18.0.1", port := some 2223, user := "aiallmacpro" }),
    ("hetzner-brain", { host := "195.201.238.144", user := "root" }),
    ("hetzner-openclaw", { host := "95.216.212.174", user := "root", sshKey := some "/ssh/openclaw_ed25519" })]

def safeCommands : List String :=
  ["hostname", "uptime", "uname -a", "df -h", "free -h", "docker ps", "docker compose ps", "ls", "cat", "head", "tail", "curl",
    "python3 --version", "node --version", "sw_vers"]

/-- `command.split()[0]`. -/
def cmdBase (command : List Char) : List Char := (split command).headD []

def safeBases : List String := safeCommands.map fun c => String.ofList (cmdBase c.toList)

inductive NodeAnswer where
  | refused (answer : Dict Value)
  /-- The words that `ssh` is started with: options, destination and command. -/
  | ssh (options : List String) (destination : String) (command : List Char)

def sshOptions (node : OccpNode) : List String :=
  ["-o", "ConnectTimeout=5", "-o", "BatchMode=yes", "-o", "StrictHostKeyChecking=accept-new", "-o",
    "UserKnownHostsFile=/ssh/known_hosts", "-p", toString (node.port.getD 22), "-i", node.sshKey.getD "/ssh/brain_ed25519"]

/-- `_OCCP_NODES.get(node_id)`; what cannot be hashed raises. -/
def node? (nodeId : Value) : Except PyError (Option OccpNode) :=
  match nodeId with
  | .str id => .ok (occpNodes.lookup id)
  | .list _ => .error (.typeError "unhashable type: 'list'")
  | .dict _ => .error (.typeError "unhashable type: 'dict'")
  | _ => .ok none

/-- `_node_exec`, up to the start of `ssh`; `text` is `str`. -/
def nodeExec (text : Value → String) (params : Dict Value) : Except PyError NodeAnswer := do
  let nodeId := (params.get? "node_id").getD (.str "")
  match (params.get? "command").getD (.str "") with
  | .str raw =>
    let command := strip raw.toList
    match ← node? nodeId with
    | none =>
      let id := inserted text nodeId
      return .refused [("error", .str s!"unknown node: {id}"), ("known_nodes", .list (occpNodes.map fun e => .str e.1))]
    | some node =>
      if command = [] then return .refused [("error", .str "command required")]
      else if String.ofList (cmdBase command) ∉ safeBases then
        let base := String.ofList (cmdBase command)
        return .refused [("error", .str s!"command '{base}' not in safe allowlist"),
          ("allowed", .list ((safeBases.dedup.mergeSort (· ≤ ·)).map .str))]
      else if Char.ofNat 0 ∈ command then
        return .refused [("node_id", nodeId), ("command", .str (String.ofList command)), ("error", .str "embedded null byte")]
      else return .ssh (sshOptions node) s!"{node.user}@{node.host}" command
  | _ => throw (.other "AttributeError" "no attribute 'strip'")

/-! ## The first word -/

theorem head_splitOnP {α : Type} (p : α → Bool) (xs : List α) :
    ∃ more, xs.splitOnP p = xs.takeWhile (fun x => !p x) :: more := by
  induction xs with
  | nil => exact ⟨[], rfl⟩
  | cons x xs ih =>
    obtain ⟨more, hmore⟩ := ih
    rw [List.splitOnP_cons_eq_if_modifyHead]
    by_cases hx : p x = true
    · exact ⟨xs.splitOnP p, by simp [hx]⟩
    · exact ⟨more, by simp [hx, hmore]⟩

/-- A command that begins with no white space begins with its first word. -/
theorem cmdBase_eq {c : Char} {cs : List Char} (h : isSpace c = false) :
    cmdBase (c :: cs) = (c :: cs).takeWhile fun c => !isSpace c := by
  obtain ⟨more, hmore⟩ := head_splitOnP isSpace (c :: cs)
  unfold cmdBase Text.split
  rw [hmore]
  simp [h]

theorem strip_head {cs : List Char} {c : Char} (h : (strip cs).head? = some c) : isSpace c = false := by
  have hprefix : strip cs <+: cs.dropWhile isSpace := List.rdropWhile_prefix isSpace _
  obtain ⟨t, ht⟩ := hprefix
  have hhead : (cs.dropWhile isSpace).head? = some c := by
    rw [← ht]
    cases hstrip : strip cs with
    | nil => simp [hstrip] at h
    | cons d ds => simpa [hstrip] using h
  have hnot := List.head?_dropWhile_not isSpace cs
  rw [hhead] at hnot
  simpa using hnot

/-- The names on the allowlist are plain names. -/
theorem safeBases_plain : ∀ name ∈ safeBases,
    name.toList ≠ [] ∧ (∀ c ∈ name.toList, Shell.isNameChar c = true) ∧ name ∉ Shell.reserved := by
  simp only [← List.all_eq_true]
  decide +kernel

/-- What a command that reaches `ssh` looks like. -/
theorem nodeExec_ssh {text : Value → String} {params : Dict Value} {options : List String} {destination : String}
    {command : List Char} (h : nodeExec text params = .ok (.ssh options destination command)) :
    ∃ name rest, name ∈ safeBases ∧ command = name.toList ++ rest ∧ cmdBase command = name.toList ∧
      ∀ c, rest.head? = some c → isSpace c = true := by
  unfold nodeExec at h
  dsimp only at h
  split at h
  · next raw _ =>
    have hhead : ∀ c, (strip raw.toList).head? = some c → isSpace c = false := fun c hc => strip_head hc
    generalize strip raw.toList = stripped at h hhead
    cases hnode : node? ((params.get? "node_id").getD (.str "")) with
    | error exc => simp [hnode, bind, Except.bind] at h
    | ok found =>
      cases found with
      | none => simp [hnode, bind, Except.bind, pure, Except.pure] at h
      | some node =>
        simp only [hnode, bind, Except.bind, pure, Except.pure] at h
        split at h
        · cases h
        · next hne =>
          split at h
          · cases h
          · next hsafe =>
            split at h
            · cases h
            · cases h
              cases hcommand : command with
              | nil => exact absurd hcommand hne
              | cons c cs =>
                have hbase : cmdBase (c :: cs) = (c :: cs).takeWhile fun c => !isSpace c :=
                  cmdBase_eq (hhead c (by rw [hcommand]; rfl))
                refine ⟨String.ofList (cmdBase (c :: cs)), (c :: cs).dropWhile fun c => !isSpace c, ?_, ?_, by simp, ?_⟩
                · simpa [hcommand] using hsafe
                · rw [String.toList_ofList, hbase, List.takeWhile_append_dropWhile]
                · intro d hd
                  have hnot := List.head?_dropWhile_not (fun c => !isSpace c) (c :: cs)
                  rw [hd] at hnot
                  simpa using hnot
  · cases h

/-! ## What the shell runs -/

/-- A program that the shell runs for a script: one that a command word names. `looksUp script i` says that in some state
of the machine the shell gets to the `i`-th of these and takes it for a utility, not for a function of the script. -/
def Runs (looksUp : List Char → Nat → Prop) (script : List Char) (program : String) : Prop :=
  ∃ i w, (Shell.commandWords script)[i]? = some w ∧ looksUp script i ∧
    (w.literal = none ∨ w.literal = some program.toList)

/-- Whatever runs is on the allowlist. -/
def RunsOnlySafe (looksUp : List Char → Nat → Prop) (script : List Char) : Prop :=
  ∀ program, Runs looksUp script program → program ∈ safeBases

/-- The first word ends where the shell ends it too. -/
def EndsAtBlank (command : List Char) : Prop :=
  ∀ c, (command.drop (cmdBase command).length).head? = some c → c = ' ' ∨ c = '\t' ∨ c = '\n'

instance (command : List Char) : Decidable (EndsAtBlank command) := by
  unfold EndsAtBlank
  cases (command.drop (cmdBase command).length).head? with
  | none => exact .isTrue (by simp)
  | some c => exact decidable_of_iff (c = ' ' ∨ c = '\t' ∨ c = '\n') (by simp)

/-- Every further command of the script is one of the allowlist, named outright. -/
def FurtherSafe (looksUp : List Char → Nat → Prop) (command : List Char) : Prop :=
  ∀ i w, (Shell.commandWords command)[i]? = some w → looksUp command i →
    (i = 0 ∧ EndsAtBlank command) ∨ ∃ program ∈ safeBases, w.literal = some program.toList

/-- A command with plain arguments runs what it is checked for. -/
theorem runsOnlySafe_of_plain (looksUp : List Char → Nat → Prop) {text : Value → String} {params : Dict Value}
    {options : List String} {destination : String} {command : List Char}
    (h : nodeExec text params = .ok (.ssh options destination command)) (hblank : EndsAtBlank command)
    (hplain : ∀ c ∈ command, Shell.isArgChar c = true) : RunsOnlySafe looksUp command := by
  rintro program ⟨i, w, hw, -, hnames⟩
  obtain ⟨name, rest, hname, hcommand, hbase, -⟩ := nodeExec_ssh h
  obtain ⟨hne, hchars, hreserved⟩ := safeBases_plain name hname
  have hrest : ∀ c ∈ rest, Shell.isArgChar c = true := fun c hc => hplain c (by simp [hcommand, hc])
  have hstart : ∀ c, rest.head? = some c → c = ' ' ∨ c = '\t' := by
    intro c hc
    unfold EndsAtBlank at hblank
    rw [hbase, hcommand, List.drop_left] at hblank
    rcases hblank c hc with hspace | htab | hnewline
    · exact .inl hspace
    · exact .inr htab
    · have harg := hrest c (List.mem_of_head? hc)
      rw [hnewline] at harg
      exact absurd harg (by decide)
  rw [hcommand, Shell.commandWords_of_plain hne hchars (by rwa [String.ofList_toList]) hrest hstart] at hw
  cases i with
  | succ i => simp at hw
  | zero =>
    cases hw
    rcases hnames with hnone | hsome
    · cases hnone
    · have hsame : name = program := String.toList_injective (Option.some.inj hsome)
      rwa [← hsame]

/-! ## Samples -/

def sampleParams (command : String) : Dict Value := [("node_id", .str "hetzner-brain"), ("command", .str command)]

def sampleOptions : List String :=
  ["-o", "ConnectTimeout=5", "-o", "BatchMode=yes", "-o", "StrictHostKeyChecking=accept-new", "-o",
    "UserKnownHostsFile=/ssh/known_hosts", "-p", "22", "-i", "/ssh/brain_ed25519"]

end Occp.Adapters
