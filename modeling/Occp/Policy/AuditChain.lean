import Occp.Lib.Digests
import Occp.Lib.HashChain
import Occp.Lib.Runs
import Occp.Policy.Verdict

/-!
# The audit chain (`policy_engine/engine.py`)

An engine verifies its own log from the empty hash on, but a restarted engine begins its
log with the last entry of the one before. Two accepted logs with one last hash are one log.
-/

namespace Occp.Policy

open Occp.Lib

/-! ## Samples of JSON text -/

def jsonChar (c : Char) : List Char :=
  if c = '"' ∨ c = '\\' then ['\\', c]
  else if c = '\n' then ['\\', 'n']
  else if 32 ≤ c.toNat ∧ c.toNat < 127 then [c]
  else '\\' :: 'u' :: [4096, 256, 16, 1].map fun unit => Nat.digitChar (c.toNat / unit % 16)

def jsonString (s : String) : String := String.ofList ('"' :: s.toList.flatMap jsonChar ++ ['"'])

/-- One more entry, in the order of the keys. -/
def insertByKey (entry : String × String) : List (String × String) → List (String × String)
  | [] => [entry]
  | first :: rest => if entry.1 < first.1 then entry :: first :: rest else first :: insertByKey entry rest

mutual

/-- `json.dumps(v, sort_keys=True)`, for values without floats. -/
def jsonText : Value → String
  | .none => "null"
  | .bool b => if b then "true" else "false"
  | .int n => toString n
  | .float _ => ""
  | .str s => jsonString s
  | .list items => "[" ++ ", ".intercalate (jsonItems items) ++ "]"
  | .dict entries => "\x7b" ++ ", ".intercalate ((jsonEntries entries).map fun e => jsonString e.1 ++ ": " ++ e.2) ++ "\x7d"

def jsonItems : List Value → List String
  | [] => []
  | v :: rest => jsonText v :: jsonItems rest

def jsonEntries : List (String × Value) → List (String × String)
  | [] => []
  | (key, v) :: rest => insertByKey (key, jsonText v) (jsonEntries rest)

end

example : jsonText (.dict [("b", .list [.int (-1), .none]), ("a", .str "x\"y")]) =
    "\x7b\"a\": \"x\\\"y\", \"b\": [-1, null]\x7d" := by decide +kernel

/-- `str` of a string and of a list of strings. -/
def sampleStr : Value → String
  | .str s => s
  | .list items => reprStrings (items.filterMap fun
      | .str s => some s
      | _ => none)
  | _ => ""

/-- Python's library, as far as the samples need it. -/
def sampleLib : PyLib := { plainLib with str := sampleStr, dumps := jsonText, sha256 := sampleDigest }

/-! ## The engine's log -/

/-- What `compute_hash` makes of an entry and of the hash before it. -/
def stamp (py : PyLib) (before : String) (e : AuditEntry) : String := py.sha256 (py.dumps (e.payload before))

namespace PolicyEngine

def setChainHead (eng : PolicyEngine) (entry : AuditEntry) : PolicyEngine :=
  if eng.auditChain.isEmpty then { eng with auditChain := eng.auditChain ++ [entry] } else eng

/-- `audit`; `detail or {}` is the same for no detail and for an empty one. -/
def audit (py : PyLib) (eng : PolicyEngine) (id timestamp actor action taskId : String)
    (detail : Option (Dict Value)) : AuditEntry × PolicyEngine :=
  let (entry, eng) := eng.appendAudit py id timestamp actor action taskId (detail.getD [])
  (entry, { eng with auditStore := eng.auditStore.map (· ++ [entry]) })

/-- The loop of `verify_entries`. -/
def verifyFrom (py : PyLib) : String → List AuditEntry → Bool
  | _, [] => true
  | before, entry :: entries =>
    let expected : AuditEntry :=
      { id := entry.id, timestamp := entry.timestamp, actor := entry.actor, action := entry.action,
        taskId := entry.taskId, detail := entry.detail }
    if (expected.computeHash py before).hash ≠ entry.hash then false else verifyFrom py entry.hash entries

def verifyEntries (py : PyLib) (entries : List AuditEntry) : Bool := verifyFrom py "" entries

def verifyAuditChain (py : PyLib) (eng : PolicyEngine) : Bool := verifyEntries py eng.auditChain

/-! ## Specs -/

theorem verifyFrom_iff (py : PyLib) (before : String) (entries : List AuditEntry) :
    verifyFrom py before entries = true ↔ Chained (stamp py) AuditEntry.hash before entries := by
  induction entries generalizing before with
  | nil => simp [verifyFrom, Chained]
  | cons entry entries ih =>
    have hunfold : verifyFrom py before (entry :: entries) =
        if stamp py before entry ≠ entry.hash then false else verifyFrom py entry.hash entries := rfl
    rw [Chained, ← ih, hunfold, eq_comm (a := entry.hash)]
    by_cases h : stamp py before entry = entry.hash <;> simp [h]

theorem appendAudit_spec (py : PyLib) (eng : PolicyEngine) (id timestamp actor action taskId : String)
    (detail : Dict Value) :
    ∃ entry, (eng.appendAudit py id timestamp actor action taskId detail).2 =
        { eng with auditChain := eng.auditChain ++ [entry] } ∧
      (eng.appendAudit py id timestamp actor action taskId detail).1 = entry ∧ entry.timestamp = timestamp ∧
      entry.hash = stamp py (tip AuditEntry.hash "" eng.auditChain) entry := by
  refine ⟨_, rfl, rfl, rfl, ?_⟩
  unfold tip
  cases eng.auditChain.getLast? <;> rfl

/-! ## A restarted engine -/

/-- An operation that writes to the log. -/
inductive Op where
  | evaluate (t : Task) (now : Nat) (entryId timestamp : String)
  | audit (id timestamp actor action taskId : String) (detail : Option (Dict Value))

/-- An evaluation that raises writes nothing. -/
def apply (py : PyLib) (eng : PolicyEngine) : Op → PolicyEngine
  | .evaluate t now entryId timestamp =>
    match eng.evaluate py t now entryId timestamp with
    | .ok (_, eng) => eng
    | .error _ => eng
  | .audit id timestamp actor action taskId detail => (eng.audit py id timestamp actor action taskId detail).2

/-- A new engine, initialised with the last persisted entry, if there is one. -/
def restarted (eng : PolicyEngine) (last : Option AuditEntry) : PolicyEngine :=
  match last with
  | some entry => eng.setChainHead entry
  | none => eng

theorem evaluate_auditChain {py : PyLib} {eng eng' : PolicyEngine} {t : Task} {now : Nat} {entryId timestamp : String}
    {result : GateResult} (h : eng.evaluate py t now entryId timestamp = .ok (result, eng')) :
    ∃ entry, eng'.auditChain = eng.auditChain ++ [entry] ∧
      entry.hash = stamp py (tip AuditEntry.hash "" eng.auditChain) entry := by
  simp only [evaluate, bind, Except.bind] at h
  split at h
  · cases h
  · split at h
    · cases h
    · obtain ⟨entry, heng, hentry, -, hhash⟩ := appendAudit_spec py eng entryId timestamp "policy_engine" "gate_evaluation"
        t.id (eng.verdict (taskToPayload t) ‹_› ‹_›).toDecisionRecord
      simp only [pure, Except.pure, Except.ok.injEq, Prod.mk.injEq] at h
      obtain ⟨-, rfl⟩ := h
      exact ⟨entry, by rw [heng], hhash⟩

/-- An operation leaves the log as it is, or adds an entry that continues it. -/
theorem apply_auditChain (py : PyLib) (eng : PolicyEngine) (op : Op) :
    (eng.apply py op).auditChain = eng.auditChain ∨
      ∃ entry, (eng.apply py op).auditChain = eng.auditChain ++ [entry] ∧
        entry.hash = stamp py (tip AuditEntry.hash "" eng.auditChain) entry := by
  cases op with
  | evaluate t now entryId timestamp =>
    simp only [apply]
    split
    · next result eng' h => exact .inr (evaluate_auditChain h)
    · exact .inl rfl
  | audit id timestamp actor action taskId detail =>
    obtain ⟨entry, heng, -, -, hhash⟩ :=
      appendAudit_spec py eng id timestamp actor action taskId (detail.getD [])
    exact .inr ⟨entry, by simp only [apply, audit, heng], hhash⟩

/-- Whether a log verifies is settled by the log that the operations continue. -/
theorem verifyAuditChain_run (py : PyLib) (eng : PolicyEngine) (ops : List Op) :
    (run (apply py) eng ops).verifyAuditChain py = eng.verifyAuditChain py := by
  have hstep : ∀ (eng : PolicyEngine) (op : Op), (eng.apply py op).verifyAuditChain py = eng.verifyAuditChain py := by
    intro eng op
    rw [Bool.eq_iff_iff, verifyAuditChain, verifyAuditChain, verifyEntries, verifyEntries, verifyFrom_iff, verifyFrom_iff]
    rcases apply_auditChain py eng op with hsame | ⟨entry, hgrown, hhash⟩
    · rw [hsame]
    · rw [hgrown, chained_concat]
      exact and_iff_left hhash
  induction ops generalizing eng with
  | nil => rfl
  | cons op ops ih => rw [run_cons, ih, hstep]

/-- **A restarted engine verifies, after any operations, just when the entry it starts with is
stamped as the first of a chain.** -/
theorem restarted_verifies_iff (py : PyLib) (eng : PolicyEngine) (hnew : eng.auditChain = [])
    (last : Option AuditEntry) (ops : List Op) :
    (run (apply py) (eng.restarted last) ops).verifyAuditChain py ↔
      ∀ entry, last = some entry → entry.hash = stamp py "" entry := by
  rw [verifyAuditChain_run, verifyAuditChain, verifyEntries, verifyFrom_iff]
  cases last with
  | none => simp [restarted, hnew, Chained]
  | some entry => simp [restarted, setChainHead, hnew, Chained]

/-! ## Samples -/

/-- An entry of a new chain, and one after it. -/
def sampleOps : List Op := [.audit "e1" "t1" "henry" "start" "" none, .audit "e2" "t2" "henry" "stop" "" none]

theorem restarted_after_one_entry :
    (run (apply sampleLib) (({} : PolicyEngine).restarted
        (run (apply sampleLib) {} (sampleOps.take 1)).auditChain.getLast?) sampleOps).verifyAuditChain sampleLib ↔
      ∀ entry, (run (apply sampleLib) {} (sampleOps.take 1)).auditChain.getLast? = some entry →
        entry.hash = stamp sampleLib "" entry :=
  restarted_verifies_iff sampleLib {} rfl _ sampleOps

/-- Started anew after two entries, the engine does not verify. -/
theorem restarted_after_two_entries :
    ¬ ∀ (py : PyLib) (before ops : List Op),
      (run (apply py) (({} : PolicyEngine).restarted (run (apply py) {} before).auditChain.getLast?) ops).verifyAuditChain
        py = true := by
  intro h
  have hverifies := h sampleLib sampleOps []
  revert hverifies
  decide +kernel

/-! ## The last hash binds the log -/

/-- What is hashed along the log. -/
def payloads (entries : List AuditEntry) : List Value :=
  (links AuditEntry.hash "" entries).map fun l => l.2.payload l.1

def hashedTexts (py : PyLib) (entries : List AuditEntry) : List String := (payloads entries).map py.dumps

/-- What an entry says, `hash` and `prev_hash` aside. Details are compared as Python does. -/
def SameContent (e f : AuditEntry) : Prop :=
  e.id = f.id ∧ e.timestamp = f.timestamp ∧ e.actor = f.actor ∧ e.action = f.action ∧ e.taskId = f.taskId ∧
    (Value.dict e.detail).pyEq (.dict f.detail) = true

theorem payload_pyEq_iff (e f : AuditEntry) (before before' : String) :
    (e.payload before).pyEq (f.payload before') = true ↔ before = before' ∧ SameContent e f := by
  simp [AuditEntry.payload, SameContent, Value.pyEq, Value.pyEqEntries, Dict.get?]
  tauto

/-- **The last hash binds the log.** -/
theorem last_hash_binds (py : PyLib) (entries entries' : List AuditEntry) (last last' : AuditEntry)
    (hhex : HexDigest py.sha256) (hcoll : CollisionFree py.sha256 (hashedTexts py entries ++ hashedTexts py entries'))
    (hjson : ∀ v ∈ payloads entries, ∀ w ∈ payloads entries', py.dumps v = py.dumps w → v.pyEq w = true)
    (h : verifyEntries py entries = true) (h' : verifyEntries py entries' = true)
    (hlast : entries.getLast? = some last) (hlast' : entries'.getLast? = some last') (hsame : last.hash = last'.hash) :
    entries.length = entries'.length ∧ List.Forall₂ SameContent entries entries' := by
  have htip : tip AuditEntry.hash "" entries = tip AuditEntry.hash "" entries' := by
    simp only [tip, hlast, hlast', hsame]
  have hbound : List.Forall₂ SameContent entries entries' := by
    have hstart : ∀ before e, stamp py before e ≠ "" := fun _ _ => hhex.ne_empty _
    refine forall₂_of_tip_eq (fun l hl l' hl' heq => ?_) hstart ((verifyFrom_iff py "" entries).mp h)
      ((verifyFrom_iff py "" entries').mp h') htip
    have hmem : l.2.payload l.1 ∈ payloads entries := List.mem_map_of_mem hl
    have hmem' : l'.2.payload l'.1 ∈ payloads entries' := List.mem_map_of_mem hl'
    have htext := hcoll _ (List.mem_append_left _ (List.mem_map_of_mem hmem)) _
      (List.mem_append_right _ (List.mem_map_of_mem hmem')) heq
    exact (payload_pyEq_iff l.2 l'.2 l.1 l'.1).mp (hjson _ hmem _ hmem' htext)
  exact ⟨hbound.length_eq, hbound⟩

def sampleLog : List AuditEntry := (run (apply sampleLib) {} sampleOps).auditChain

theorem sampleLog_verifies : verifyEntries sampleLib sampleLog = true :=
  verifyAuditChain_run sampleLib {} sampleOps

theorem sample_log_bound : sampleLog.length = sampleLog.length ∧ List.Forall₂ SameContent sampleLog sampleLog :=
  last_hash_binds sampleLib sampleLog sampleLog (sampleLog.getLast (by decide +kernel)) (sampleLog.getLast (by decide +kernel))
    sampleDigest_hex (by decide +kernel) (by decide +kernel) sampleLog_verifies sampleLog_verifies
    (List.getLast?_eq_some_getLast _) (List.getLast?_eq_some_getLast _) rfl

end PolicyEngine

end Occp.Policy
