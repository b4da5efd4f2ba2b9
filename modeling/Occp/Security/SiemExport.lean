import Occp.Lib.Except
import Occp.Lib.Runs
import Occp.Security.SiemEvents

/-!
# Emitting and flushing security events (`security/siem_export.py`)

The exporter only buffers; how an event is formatted, and whether it can be, is a parameter. A flush
takes the whole buffer and counts it before the first event is formatted.
-/

namespace Occp.Security

variable {Event Text : Type}

structure SIEMExporter (Event : Type) where
  batchSize : Int := 100
  buffer : List Event := []
  eventsEmitted : Nat := 0
  eventsFlushed : Nat := 0

namespace SIEMExporter

variable (formatEvent : Event → Except PyError Text) (x : SIEMExporter Event)

def emit (event : Event) : SIEMExporter Event :=
  { x with buffer := x.buffer ++ [event], eventsEmitted := x.eventsEmitted + 1 }

/-- The outcome of the call and the exporter that it leaves. -/
def flush : Except PyError (List Text) × SIEMExporter Event :=
  if x.buffer.isEmpty then (.ok [], x)
  else
    let batch := x.buffer
    (batch.mapM formatEvent, { x with buffer := [], eventsFlushed := x.eventsFlushed + batch.length })

variable {formatEvent} {x} {outputs : List Text}

/-- A flush that raises has emptied the buffer all the same. -/
@[simp] theorem flush_buffer : (x.flush formatEvent).2.buffer = [] := by
  unfold flush
  split
  · next h => exact List.isEmpty_iff.mp h
  · rfl

@[simp] theorem flush_batchSize : (x.flush formatEvent).2.batchSize = x.batchSize := by
  unfold flush
  split <;> rfl

theorem flush_outcome : (x.flush formatEvent).1 = x.buffer.mapM formatEvent := by
  unfold flush
  split
  · next h => rw [List.isEmpty_iff.mp h]; rfl
  · rfl

theorem flush_counts : (x.flush formatEvent).2.eventsFlushed = x.eventsFlushed + x.buffer.length := by
  unfold flush
  split
  · next h => simp [List.isEmpty_iff.mp h]
  · rfl

@[simp] theorem flush_emitted : (x.flush formatEvent).2.eventsEmitted = x.eventsEmitted := by
  unfold flush
  split <;> rfl

end SIEMExporter

/-! ## Runs -/

inductive ExportCall (Event : Type) where
  | emit (event : Event)
  | flush

/-- An exporter in use, with all that was emitted and what each flush that returned has returned. -/
structure ExportLog (Event Text : Type) where
  exporter : SIEMExporter Event
  emitted : List Event := []
  returned : List (List Text) := []

namespace ExportLog

variable (formatEvent : Event → Except PyError Text)

def step (l : ExportLog Event Text) : ExportCall Event → ExportLog Event Text
  | .emit event => { l with exporter := l.exporter.emit event, emitted := l.emitted ++ [event] }
  | .flush =>
    { l with
      exporter := (l.exporter.flush formatEvent).2
      returned := l.returned ++ (l.exporter.flush formatEvent).1.toOption.toList }

def opened (batchSize : Int) : ExportLog Event Text := { exporter := { batchSize } }

/-- Nothing is lost or duplicated, no batch is too large and every event is counted. -/
structure Accounted (l : ExportLog Event Text) : Prop where
  exported : ∃ done, l.emitted = done ++ l.exporter.buffer ∧
    done.map formatEvent = l.returned.flatten.map .ok
  batches : 0 < l.exporter.batchSize → ∀ batch ∈ l.returned, (batch.length : Int) ≤ l.exporter.batchSize
  counted : l.exporter.eventsFlushed + l.exporter.buffer.length = l.exporter.eventsEmitted
  emitted : l.exporter.eventsEmitted = l.emitted.length

/-- Of every run: the account holds all along, and a flush that raises leaves the buffer as it was. -/
structure NothingLost (batchSize : Int) (calls : List (ExportCall Event)) : Prop where
  accounted : ∀ before, before <+: calls → Accounted formatEvent (Lib.run (step formatEvent) (opened batchSize) before)
  raised : ∀ before after, calls = before ++ .flush :: after →
    let x := (Lib.run (step formatEvent) (opened batchSize) before).exporter
    ∀ e, (x.flush formatEvent).1 = .error e → (x.flush formatEvent).2.buffer = x.buffer

/-- Whatever is flushed can be formatted and fits in one batch. -/
def Flushable (l : ExportLog Event Text) : ExportCall Event → Prop
  | .emit _ => True
  | .flush => l.exporter.buffer ≠ [] → (∀ event ∈ l.exporter.buffer, ∃ text, formatEvent event = .ok text) ∧
      (0 < l.exporter.batchSize → (l.exporter.buffer.length : Int) ≤ l.exporter.batchSize)

variable {formatEvent} {l : ExportLog Event Text}

theorem mapM_eq_ok_iff_map {events : List Event} {texts : List Text} :
    events.mapM formatEvent = .ok texts ↔ events.map formatEvent = texts.map .ok := by
  rw [Lib.Except.mapM_eq_ok]
  induction events generalizing texts with
  | nil => cases texts <;> simp
  | cons event events ih =>
    cases texts with
    | nil => simp
    | cons text texts => rw [List.forall₂_cons, ih, List.map_cons, List.map_cons, List.cons_eq_cons]

theorem exists_mapM_eq_ok {events : List Event} :
    (∃ texts, events.mapM formatEvent = .ok texts) ↔ ∀ event ∈ events, ∃ text, formatEvent event = .ok text := by
  simp only [Lib.Except.mapM_eq_ok]
  induction events with
  | nil => exact iff_of_true ⟨[], .nil⟩ (by simp)
  | cons event events ih =>
    rw [List.forall_mem_cons, ← ih]
    constructor
    · rintro ⟨_, _ | ⟨hfirst, hrest⟩⟩
      exact ⟨⟨_, hfirst⟩, _, hrest⟩
    · rintro ⟨⟨text, htext⟩, texts, htexts⟩
      exact ⟨text :: texts, .cons htext htexts⟩

theorem length_eq_of_map_eq {events : List Event} {texts : List Text}
    (h : events.map formatEvent = texts.map .ok) : texts.length = events.length := by
  have hlength := congrArg List.length h
  simpa using hlength.symm

theorem Accounted.emit (h : Accounted formatEvent l) (event : Event) :
    Accounted formatEvent (l.step formatEvent (.emit event)) := by
  obtain ⟨done, hemitted, hdone⟩ := h.exported
  have hcounted := h.counted
  refine ⟨⟨done, ?_, hdone⟩, h.batches, ?_, ?_⟩
  · simp only [step, SIEMExporter.emit, hemitted, List.append_assoc]
  · simp only [step, SIEMExporter.emit, List.length_append, List.length_singleton]
    omega
  · simp [step, SIEMExporter.emit, h.emitted]

theorem Accounted.flush (h : Accounted formatEvent l) (hflush : Flushable formatEvent l .flush) :
    Accounted formatEvent (l.step formatEvent .flush) := by
  obtain ⟨done, hemitted, hdone⟩ := h.exported
  have hcounted := h.counted
  have hformats : ∀ event ∈ l.exporter.buffer, ∃ text, formatEvent event = .ok text := by
    intro event hevent
    exact (hflush (List.ne_nil_of_mem hevent)).1 event hevent
  obtain ⟨texts, htexts⟩ := exists_mapM_eq_ok.mpr hformats
  have hmap := mapM_eq_ok_iff_map.mp htexts
  have hreturned : (l.step formatEvent .flush).returned = l.returned ++ [texts] := by
    simp only [step, SIEMExporter.flush_outcome, htexts]
    rfl
  refine ⟨⟨l.emitted, ?_, ?_⟩, ?_, ?_, ?_⟩
  · simp [step]
  · rw [hreturned, hemitted, List.map_append, hdone, hmap]
    simp
  · rw [hreturned]
    intro hpos batch hbatch
    simp only [step, SIEMExporter.flush_batchSize] at hpos ⊢
    rcases List.mem_append.mp hbatch with hold | hnew
    · exact h.batches hpos batch hold
    · rw [List.mem_singleton.mp hnew, length_eq_of_map_eq hmap]
      by_cases hempty : l.exporter.buffer = []
      · rw [hempty]
        exact Int.le_of_lt hpos
      · exact (hflush hempty).2 hpos
  · simp only [step, SIEMExporter.flush_counts, SIEMExporter.flush_buffer, SIEMExporter.flush_emitted, List.length_nil]
    omega
  · simpa [step] using h.emitted

theorem accounted_opened (batchSize : Int) : Accounted formatEvent (opened batchSize) where
  exported := ⟨[], rfl, rfl⟩
  batches := by simp [opened]
  counted := rfl
  emitted := rfl

theorem accounted_of_admitted {batchSize : Int} {calls : List (ExportCall Event)}
    (h : Lib.Admitted (step formatEvent) (Flushable formatEvent) (opened batchSize) calls) :
    Accounted formatEvent (Lib.run (step formatEvent) (opened batchSize) calls) := by
  refine h.invariant (Accounted formatEvent) (accounted_opened batchSize) ?_
  intro l call hl hok
  cases call with
  | emit event => exact hl.emit event
  | flush => exact hl.flush hok

/-- A flush that keeps the account and leaves the buffer when it raises could format it, in one batch. -/
theorem flushable_of_kept
    (hraised : ∀ e, (l.exporter.flush formatEvent).1 = .error e → (l.exporter.flush formatEvent).2.buffer = l.exporter.buffer)
    (hafter : Accounted formatEvent (l.step formatEvent .flush)) : Flushable formatEvent l .flush := by
  intro hbuffer
  cases hresult : (l.exporter.flush formatEvent).1 with
  | error e =>
    have hsame := hraised e hresult
    rw [SIEMExporter.flush_buffer] at hsame
    exact absurd hsame.symm hbuffer
  | ok texts =>
    rw [SIEMExporter.flush_outcome] at hresult
    refine ⟨exists_mapM_eq_ok.mp ⟨texts, hresult⟩, fun hpos => ?_⟩
    have hbatch := hafter.batches (by simpa [step] using hpos) texts (by
      simp only [step, SIEMExporter.flush_outcome, hresult]
      exact List.mem_append_right _ (List.mem_singleton.mpr rfl))
    rw [length_eq_of_map_eq (mapM_eq_ok_iff_map.mp hresult)] at hbatch
    simpa [step] using hbatch

theorem nothingLost_iff (formatEvent : Event → Except PyError Text) (batchSize : Int)
    (calls : List (ExportCall Event)) :
    NothingLost formatEvent batchSize calls ↔
      Lib.Admitted (step formatEvent) (Flushable formatEvent) (opened batchSize) calls := by
  constructor
  · intro h
    rw [Lib.admitted_iff_forall]
    intro before call after hsplit
    cases call with
    | emit event => trivial
    | flush =>
      refine flushable_of_kept (h.raised before after hsplit) ?_
      have hafter := h.accounted (before ++ [.flush]) ⟨after, by rw [hsplit, List.append_assoc]; rfl⟩
      rwa [Lib.run_append] at hafter
  · intro h
    refine ⟨?_, ?_⟩
    · rintro before ⟨after, rfl⟩
      exact accounted_of_admitted (Lib.admitted_append.mp h).1
    · intro before after hsplit x e herror
      obtain ⟨hflush, -⟩ := (Lib.admitted_append.mp (hsplit ▸ h)).2
      rw [SIEMExporter.flush_buffer]
      by_contra hbuffer
      obtain ⟨texts, htexts⟩ := exists_mapM_eq_ok.mpr (hflush (Ne.symm hbuffer)).1
      rw [SIEMExporter.flush_outcome] at herror
      rw [herror] at htexts
      cases htexts

end ExportLog

/-- Two events of which the second has its time in milliseconds: no year so far off is formatted. -/
def farOff : List (ExportCall SIEMEvent) :=
  [.emit { eventType := "a", eventId := "1", timestamp := 1700000000 },
    .emit { eventType := "b", eventId := "2", timestamp := 1700000000000 }, .flush]

/-- Two events where a batch has room for one. -/
def crowded : List (ExportCall SIEMEvent) :=
  [.emit { eventType := "a", eventId := "1", timestamp := 1700000000 },
    .emit { eventType := "b", eventId := "2", timestamp := 1700000001 }, .flush]

theorem events_lost_and_batch_overfull :
    ¬ ExportLog.NothingLost formatCef 100 farOff ∧ ¬ ExportLog.NothingLost formatLeef 1 crowded := by
  constructor
  · intro h
    have hkept := h.raised (farOff.take 2) [] rfl (.valueError "year 55840 is out of range") (by decide +kernel)
    simpa [farOff, Lib.run, ExportLog.step, ExportLog.opened, SIEMExporter.emit] using congrArg List.length hkept
  · intro h
    have hbatches := (h.accounted crowded List.prefix_rfl).batches (by decide +kernel)
    revert hbatches
    decide +kernel

end Occp.Security
