import Occp.Policy.AuditTrail

/-!
# The audit writers that share a store (`adapters/voice_handler.py`, `policy_engine/engine.py`)

The engine takes the hash before from its own log, the voice handler from the store, and the
engine never sees what the handler has stored. The rows are one chain as long as all the engine's
entries come first.
-/

namespace Occp.Adapters

open Lib (run Admitted tip tip_concat Chained chained_concat)
open Policy (AuditEntry PolicyEngine PyLib sampleLib stamp)
open Policy.AuditStore (Listing getLast)
open Policy.PolicyEngine (verifyEntries verifyFrom_iff)
open Policy.Trail (listing_eq getLast_eq)

structure VoiceCommandLog where
  id : String
  transcription : String
  intent : String
  agentType : String
  taskId : Option String := none
  status : String := "received"
  durationMs : Int := 0

/-- The entry of `_execute_pipeline`; `id` and `timestamp` are its defaults. -/
def VoiceCommandLog.auditEntry (log : VoiceCommandLog) (chatId : Int) (id timestamp : String) : AuditEntry :=
  { id, timestamp
    actor := "voice_pipeline"
    action := "voice_command"
    taskId := log.taskId.getD ""
    detail :=
      [("command_id", .str log.id), ("chat_id", .int chatId),
        ("transcription", .str (String.ofList (log.transcription.toList.take 500))), ("intent", .str log.intent),
        ("agent_type", .str log.agentType), ("status", .str log.status), ("duration_ms", .int log.durationMs)] }

structure SharedTrail where
  engine : PolicyEngine := {}
  /-- The engine's entries that have not reached the database. -/
  unsaved : List AuditEntry := []
  /-- The handler's entries that still have to ask for the last row. -/
  drafts : List AuditEntry := []
  /-- The handler's entries that have asked, and how many rows there were then. -/
  linked : List (AuditEntry × Nat) := []
  rows : List AuditEntry := []
  /-- How many of the rows are the handler's. -/
  voiceRows : Nat := 0

namespace SharedTrail

/-- What runs between two awaits. A write that fails never comes to its commit. -/
inductive Event where
  /-- `audit` or `evaluate`, up to `store.append`. -/
  | engine (op : PolicyEngine.Op)
  | engineCommit (i : Nat)
  /-- The end of a voice command, up to `get_last`. -/
  | command (log : VoiceCommandLog) (chatId : Int) (id timestamp : String)
  | getLast (i pick : Nat)
  | voiceCommit (i : Nat)

def step (py : PyLib) (s : SharedTrail) : Event → SharedTrail
  | .engine op =>
    let engine := s.engine.apply py op
    -- An evaluation that raises adds nothing to the log.
    { s with engine, unsaved := s.unsaved ++ engine.auditChain.drop s.engine.auditChain.length }
  | .engineCommit i =>
    match s.unsaved[i]? with
    | none => s
    | some entry => { s with unsaved := s.unsaved.eraseIdx i, rows := s.rows ++ [entry] }
  | .command log chatId id timestamp => { s with drafts := s.drafts ++ [log.auditEntry chatId id timestamp] }
  | .getLast i pick =>
    match s.drafts[i]? with
    | none => s
    | some entry =>
      let prevHash := match getLast s.rows pick with
        | some last => last.hash
        | none => ""
      { s with
        drafts := s.drafts.eraseIdx i, linked := s.linked ++ [(entry.computeHash py prevHash, s.rows.length)] }
  | .voiceCommit i =>
    match s.linked[i]? with
    | none => s
    | some (entry, _) =>
      { s with linked := s.linked.eraseIdx i, rows := s.rows ++ [entry], voiceRows := s.voiceRows + 1 }

def entries (s : SharedTrail) : List AuditEntry :=
  s.engine.auditChain ++ s.unsaved ++ s.drafts ++ s.linked.map (·.1) ++ s.rows

/-- A new entry is later than all there are. -/
def Later (py : PyLib) (s : SharedTrail) : Event → Prop
  | .engine op =>
    ∀ e ∈ (s.engine.apply py op).auditChain.drop s.engine.auditChain.length, ∀ f ∈ s.entries, f.timestamp < e.timestamp
  | .command _ _ _ timestamp => ∀ f ∈ s.entries, f.timestamp < timestamp
  | _ => True

/-- The engine's entries are stored in the order they were made, before any of the handler's. One
of the handler's is stored while the row it asked for is still the last, and was made after it. -/
def InTurn (s : SharedTrail) : Event → Prop
  | .engineCommit i => i < s.unsaved.length → i = 0 ∧ s.voiceRows = 0
  | .voiceCommit i =>
    ∀ w, s.linked[i]? = some w → w.2 = s.rows.length ∧ ∀ f ∈ s.rows, f.timestamp < w.1.timestamp
  | _ => True

structure InOnePiece (py : PyLib) (s : SharedTrail) : Prop where
  log : Chained (stamp py) AuditEntry.hash "" s.engine.auditChain
  logLater : s.engine.auditChain.Pairwise fun e f => e.timestamp < f.timestamp
  saved : s.voiceRows = 0 → s.rows ++ s.unsaved = s.engine.auditChain
  linked : ∀ w ∈ s.linked, w.2 ≤ s.rows.length ∧ w.1.hash = stamp py (tip AuditEntry.hash "" (s.rows.take w.2)) w.1
  chained : Chained (stamp py) AuditEntry.hash "" s.rows
  later : s.rows.Pairwise fun e f => e.timestamp < f.timestamp

variable {py : PyLib} {s : SharedTrail}

/-! ## The steps -/

theorem InOnePiece.engine (h : InOnePiece py s) (op : PolicyEngine.Op) (hlater : s.Later py (.engine op)) :
    InOnePiece py (s.step py (.engine op)) := by
  unfold Later at hlater
  unfold step
  dsimp only at hlater ⊢
  rcases PolicyEngine.apply_auditChain py s.engine op with hsame | ⟨entry, hgrown, hhash⟩
  · rw [hsame, List.drop_length, List.append_nil]
    refine ⟨?_, ?_, fun hvoice => ?_, h.linked, h.chained, h.later⟩
    · rw [hsame]
      exact h.log
    · rw [hsame]
      exact h.logLater
    · rw [hsame]
      exact h.saved hvoice
  · rw [hgrown, List.drop_left] at hlater ⊢
    refine ⟨?_, ?_, fun hvoice => ?_, h.linked, h.chained, h.later⟩
    · rw [hgrown, chained_concat]
      exact ⟨h.log, hhash⟩
    · rw [hgrown, List.pairwise_append]
      refine ⟨h.logLater, List.pairwise_singleton _ _, ?_⟩
      intro e he f hf
      have hmem : e ∈ s.entries := by simp [entries, he]
      exact hlater f hf e hmem
    · rw [hgrown, ← h.saved hvoice, List.append_assoc]

/-- What a new row does to the entries that wait to follow an older one: nothing. -/
theorem InOnePiece.linked_concat (h : InOnePiece py s) (row : AuditEntry) (w : AuditEntry × Nat) (hw : w ∈ s.linked) :
    w.2 ≤ (s.rows ++ [row]).length ∧
      w.1.hash = stamp py (tip AuditEntry.hash "" ((s.rows ++ [row]).take w.2)) w.1 := by
  obtain ⟨hlen, hhash⟩ := h.linked w hw
  rw [List.take_append_of_le_length hlen]
  refine ⟨?_, hhash⟩
  simp
  omega

theorem InOnePiece.engineCommit (h : InOnePiece py s) (i : Nat) (hturn : s.InTurn (.engineCommit i)) :
    InOnePiece py (s.step py (.engineCommit i)) := by
  unfold InTurn at hturn
  unfold step
  dsimp only
  split
  · exact h
  · next entry hentry =>
    obtain ⟨rfl, hvoice⟩ := hturn (List.getElem?_eq_some_iff.mp hentry).1
    obtain ⟨rest, hrest⟩ : ∃ rest, s.unsaved = entry :: rest := by
      cases hunsaved : s.unsaved with
      | nil => simp [hunsaved] at hentry
      | cons first rest =>
        rw [hunsaved] at hentry
        exact ⟨rest, by simpa using hentry⟩
    have hlog : (s.rows ++ [entry]) ++ rest = s.engine.auditChain := by
      rw [← h.saved hvoice, hrest, List.append_assoc, List.singleton_append]
    refine ⟨h.log, h.logLater, fun _ => ?_, h.linked_concat entry, ?_, ?_⟩
    · dsimp only
      rw [hrest, List.eraseIdx_cons_zero, hlog]
    · have hchained := h.log
      rw [← hlog] at hchained
      exact hchained.of_append
    · have hlater := h.logLater
      rw [← hlog] at hlater
      exact (List.pairwise_append.mp hlater).1

theorem InOnePiece.getLast (h : InOnePiece py s) (i pick : Nat) : InOnePiece py (s.step py (.getLast i pick)) := by
  unfold step
  dsimp only
  split
  · exact h
  · next entry hentry =>
    refine ⟨h.log, h.logLater, h.saved, ?_, h.chained, h.later⟩
    intro w hw
    rcases List.mem_append.mp hw with hold | hnew
    · exact h.linked w hold
    · rw [List.mem_singleton.mp hnew, getLast_eq h.later]
      refine ⟨Nat.le_refl _, ?_⟩
      dsimp only
      rw [List.take_length]
      unfold tip
      cases s.rows.getLast? <;> rfl

theorem InOnePiece.voiceCommit (h : InOnePiece py s) (i : Nat) (hturn : s.InTurn (.voiceCommit i)) :
    InOnePiece py (s.step py (.voiceCommit i)) := by
  unfold InTurn at hturn
  unfold step
  dsimp only
  split
  · exact h
  · next entry since hentry =>
    obtain ⟨hlast, hnewest⟩ := hturn _ hentry
    have hhash := (h.linked _ (List.mem_of_getElem? hentry)).2
    dsimp only at hlast hhash hnewest
    rw [hlast, List.take_length] at hhash
    refine ⟨h.log, h.logLater, fun hvoice => absurd hvoice (Nat.succ_ne_zero _), ?_, ?_, ?_⟩
    · intro w hw
      exact h.linked_concat entry w (List.mem_of_mem_eraseIdx hw)
    · rw [chained_concat]
      exact ⟨h.chained, hhash⟩
    · rw [List.pairwise_append]
      refine ⟨h.later, List.pairwise_singleton _ _, ?_⟩
      intro e he f hf
      rw [List.mem_singleton.mp hf]
      exact hnewest e he

theorem InOnePiece.step (h : InOnePiece py s) (e : Event) (hlater : s.Later py e) (hturn : s.InTurn e) :
    InOnePiece py (s.step py e) := by
  cases e with
  | engine op => exact h.engine op hlater
  | engineCommit i => exact h.engineCommit i hturn
  | command log chatId id timestamp => exact ⟨h.log, h.logLater, h.saved, h.linked, h.chained, h.later⟩
  | getLast i pick => exact h.getLast i pick
  | voiceCommit i => exact h.voiceCommit i hturn

/-! ## The runs -/

/-- **The rows of both writers verify after every run in turn**, however the writers interleave. -/
theorem shared_trail_verifies (py : PyLib) (engine : PolicyEngine) (hnew : engine.auditChain = []) (events : List Event)
    (hclock : Admitted (step py) (Later py) { engine } events) (hturn : Admitted (step py) InTurn { engine } events)
    (listed : List AuditEntry) (hlisting : Listing (run (step py) { engine } events).rows listed) :
    verifyEntries py listed = true := by
  have hstart : InOnePiece py { engine } := by
    refine ⟨?_, ?_, fun _ => hnew.symm, nofun, trivial, .nil⟩
    · dsimp only
      rw [hnew]
      trivial
    · dsimp only
      rw [hnew]
      exact .nil
  have hpiece : InOnePiece py (run (step py) { engine } events) := by
    have hboth := hclock.and hturn
    exact hboth.invariant (InOnePiece py) hstart fun s e hs he => hs.step e he.1 he.2
  rw [listing_eq hpiece.later hlisting, verifyEntries, verifyFrom_iff]
  exact hpiece.chained

instance (s : SharedTrail) (e : Event) : Decidable (Later py s e) :=
  match e with
  | .engine op => inferInstanceAs (Decidable (∀ e ∈ (s.engine.apply py op).auditChain.drop s.engine.auditChain.length,
      ∀ f ∈ s.entries, f.timestamp < e.timestamp))
  | .command _ _ _ timestamp => inferInstanceAs (Decidable (∀ f ∈ s.entries, f.timestamp < timestamp))
  | .engineCommit _ => .isTrue trivial
  | .getLast _ _ => .isTrue trivial
  | .voiceCommit _ => .isTrue trivial

instance (s : SharedTrail) (e : Event) : Decidable (InTurn s e) :=
  match e with
  | .engineCommit i => inferInstanceAs (Decidable (i < s.unsaved.length → i = 0 ∧ s.voiceRows = 0))
  | .voiceCommit i =>
    decidable_of_iff (∀ w ∈ s.linked[i]?, w.2 = s.rows.length ∧ ∀ f ∈ s.rows, f.timestamp < w.1.timestamp) Iff.rfl
  | .engine _ => .isTrue trivial
  | .command _ _ _ _ => .isTrue trivial
  | .getLast _ _ => .isTrue trivial

def sampleCommand : VoiceCommandLog :=
  { id := "v1", transcription := "deploy", intent := "deploy", agentType := "infra", status := "completed" }

/-- An entry of the engine's and one of the handler's. -/
def sampleEvents : List Event :=
  [.engine (.audit "e1" "2026-01-01" "henry" "start" "" none), .engineCommit 0,
    .command sampleCommand 7 "e2" "2026-01-02", .getLast 0 0, .voiceCommit 0]

theorem sample_events_verify : verifyEntries sampleLib (run (step sampleLib) {} sampleEvents).rows = true :=
  shared_trail_verifies sampleLib {} rfl sampleEvents (by decide +kernel) (by decide +kernel) _
    ⟨.refl _, by decide +kernel⟩

/-- The engine's next entry follows on its own last one. -/
theorem engine_skips_voice_entry :
    ¬ ∀ (py : PyLib) (engine : PolicyEngine) (events : List Event) (listed : List AuditEntry),
      engine.auditChain = [] → Admitted (step py) (Later py) { engine } events →
      Listing (run (step py) { engine } events).rows listed → verifyEntries py listed = true := by
  intro h
  have hverifies := h sampleLib {}
    (sampleEvents ++ [.engine (.audit "e3" "2026-01-03" "henry" "stop" "" none), .engineCommit 0]) _ rfl
    (by decide +kernel) ⟨.refl _, by decide +kernel⟩
  revert hverifies
  decide +kernel

end SharedTrail

end Occp.Adapters
