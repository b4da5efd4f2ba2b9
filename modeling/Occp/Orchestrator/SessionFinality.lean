import Occp.Orchestrator.Sessions

/-!
# Bounds and finality of sessions (`orchestrator/sessions.py`)

In every run the bounds of each tier hold. A terminated session refuses messages and transitions;
whoever joins it, leaves it or works in it is not asked.
-/

namespace Occp.Sessions

/-! ## Runs -/

/-- A manager in use, with the messages that have been added and to which session. -/
structure Recorder where
  manager : SessionManager
  added : List (Nat × SessionMessage) := []

/-- The message that an operation adds. -/
def recorded (m : SessionManager) : Operation → Option (Nat × SessionMessage)
  | .addMessage sessionId role content senderId metadata sentAt _ =>
    match m.get sessionId with
    | .ok (ref, s) => if s.isActive then some (ref, .of role content senderId metadata sentAt) else none
    | .error _ => none
  | _ => none

namespace Recorder

def step (r : Recorder) (op : Operation) : Recorder :=
  { manager := r.manager.step op, added := r.added ++ (recorded r.manager op).toList }

def opened (idleTimeout : Int) : Recorder := { manager := { idleTimeout } }

end Recorder

def addedTo (ref : Nat) (added : List (Nat × SessionMessage)) : List SessionMessage :=
  (added.filter (·.1 = ref)).map (·.2)

theorem addedTo_append (ref : Nat) (xs ys : List (Nat × SessionMessage)) :
    addedTo ref (xs ++ ys) = addedTo ref xs ++ addedTo ref ys := by
  simp [addedTo]

theorem addedTo_singleton (ref other : Nat) (msg : SessionMessage) :
    addedTo ref [(other, msg)] = if other = ref then [msg] else [] := by
  unfold addedTo
  by_cases h : other = ref <;> simp [h]

theorem addedTo_eq_nil {ref : Nat} {added : List (Nat × SessionMessage)} (h : ∀ e ∈ added, e.1 < ref) :
    addedTo ref added = [] := by
  unfold addedTo
  rw [List.map_eq_nil_iff, List.filter_eq_nil_iff]
  intro e he
  have hlt := h e he
  simp only [decide_eq_true_eq]
  omega

/-! ## The bounds hold in every run -/

/-- Every session is within its bounds, with the messages that were added to it. -/
structure Recorder.Sound (r : Recorder) : Prop where
  sessions : r.manager.Every fun ref s => s.Sound (addedTo ref r.added)
  known : ∀ e ∈ r.added, e.1 < r.manager.heap.length

section Bounds

variable {m : SessionManager} {added : List (Nat × SessionMessage)}

theorem sound_put {ref : Nat} {s : Session} (h : Recorder.Sound ⟨m, added⟩) (hs : s.Sound (addedTo ref added)) :
    Recorder.Sound ⟨m.put ref s, added⟩ where
  sessions := h.sessions.put hs
  known := by simpa [SessionManager.put] using h.known

theorem sound_onSession {op : Operation} {sessionId : String} {body : Session → Except SessionError Session}
    (hperform : m.perform op = m.onSession sessionId body) (h : Recorder.Sound ⟨m, added⟩)
    (hbody : ∀ s s' added, s.Sound added → body s = .ok s' → s'.Sound added) :
    Recorder.Sound ⟨m.step op, added⟩ := by
  cases hresult : m.onSession sessionId body with
  | error e =>
    rw [SessionManager.step_of_error (hperform.trans hresult)]
    exact h
  | ok m' =>
    rw [SessionManager.step_of_ok (hperform.trans hresult)]
    obtain ⟨ref, s, s', hget, hok, rfl⟩ := SessionManager.onSession_eq_ok.mp hresult
    have hs := h.sessions ref s (SessionManager.get_eq_ok hget)
    exact sound_put h (hbody s s' _ hs hok)

/-- A new session has its owner and nothing else. -/
theorem sound_create {m' : SessionManager} {sessionId ownerId : String} {tier : SessionTier}
    {context : Option (Dict Value)} {createdAt updatedAt : Int} (h : Recorder.Sound ⟨m, added⟩)
    (hok : m.create sessionId ownerId tier context createdAt updatedAt = .ok m') : Recorder.Sound ⟨m', added⟩ := by
  unfold SessionManager.create at hok
  split at hok
  · cases hok
  cases hok
  have hpos := tierConstraints_pos tier
  refine ⟨?_, ?_⟩
  · intro ref s hs
    simp only [List.getElem?_append] at hs
    split at hs
    · exact h.sessions ref s hs
    · next hle =>
      have hnone : addedTo ref added = [] := by
        apply addedTo_eq_nil
        intro e he
        have hknown : e.1 < m.heap.length := h.known e he
        omega
      rw [List.getElem?_singleton] at hs
      rw [hnone]
      split at hs
      · cases hs
        exact
          { participants_nodup := List.nodup_singleton ownerId
            participants_le := hpos.2
            tasks_nodup := List.nodup_nil
            tasks_le := Nat.zero_le _
            messages_le := Nat.zero_le _
            history := (List.rtake_nil _).symm }
      · cases hs
  · intro e he
    have hknown : e.1 < m.heap.length := h.known e he
    simp only [List.length_append, List.length_singleton]
    omega

/-- A message that is refused is not recorded, one that is taken is. -/
theorem recorded_addMessage {sessionId role content senderId : String} {metadata : Option (Dict Value)}
    {sentAt now : Int} (ref : Nat) (s : Session) (hget : m.get sessionId = .ok (ref, s)) :
    recorded m (.addMessage sessionId role content senderId metadata sentAt now) =
      if s.isActive then some (ref, .of role content senderId metadata sentAt) else none := by
  simp [recorded, hget]

theorem sound_addMessage (h : Recorder.Sound ⟨m, added⟩) (sessionId role content senderId : String)
    (metadata : Option (Dict Value)) (sentAt now : Int) :
    (Recorder.step ⟨m, added⟩ (.addMessage sessionId role content senderId metadata sentAt now)).Sound := by
  have hperform : m.perform (.addMessage sessionId role content senderId metadata sentAt now) =
      m.onSession sessionId fun s => s.addMessage (.of role content senderId metadata sentAt) now := rfl
  unfold Recorder.step
  cases hget : m.get sessionId with
  | error e =>
    have herror : m.perform (.addMessage sessionId role content senderId metadata sentAt now) = .error e := by
      rw [hperform, SessionManager.onSession_of_error hget]
    rw [SessionManager.step_of_error herror]
    simpa [recorded, hget] using h
  | ok found =>
    obtain ⟨ref, s⟩ := found
    have hheap := SessionManager.get_eq_ok hget
    rw [recorded_addMessage ref s hget]
    cases hok : s.addMessage (.of role content senderId metadata sentAt) now with
    | error e =>
      have herror : m.perform (.addMessage sessionId role content senderId metadata sentAt now) = .error e := by
        rw [hperform, SessionManager.onSession_of_get hget, hok, Except.map]
      rw [SessionManager.step_of_error herror, if_neg (Session.not_isActive_of_error hok)]
      simpa using h
    | ok s' =>
      have hdone : m.perform (.addMessage sessionId role content senderId metadata sentAt now) = .ok (m.put ref s') := by
        rw [hperform, SessionManager.onSession_of_get hget, hok, Except.map]
      rw [SessionManager.step_of_ok hdone, if_pos (Session.isActive_of_ok hok)]
      have hs := (h.sessions ref s hheap).addMessage hok
      refine ⟨?_, ?_⟩
      · intro i t ht
        rw [SessionManager.put_heap s' i hheap] at ht
        rw [Option.toList_some, addedTo_append, addedTo_singleton]
        split at ht
        · next heq =>
          cases ht
          rw [heq, if_pos rfl]
          exact hs
        · next hne =>
          rw [if_neg (Ne.symm hne), List.append_nil]
          exact h.sessions i t ht
      · intro e he
        rw [SessionManager.put, List.length_set]
        rcases List.mem_append.mp he with hold | hnew
        · exact h.known e hold
        · rw [List.mem_singleton.mp hnew]
          exact (List.getElem?_eq_some_iff.mp hheap).1

end Bounds

theorem sound_transition {m : SessionManager} {added : List (Nat × SessionMessage)} {ref : Nat}
    {newState : SessionState} {now : Int} (h : Recorder.Sound ⟨m, added⟩) :
    Recorder.Sound ⟨m.step (.transition ref newState now), added⟩ := by
  cases hs : m.heap[ref]? with
  | none =>
    have hnone : m.perform (.transition ref newState now) = .ok m := by simp [SessionManager.perform, hs]
    rw [SessionManager.step_of_ok hnone]
    exact h
  | some s =>
    have hperform := SessionManager.perform_transition newState now hs
    cases hok : s.transition newState now with
    | error e =>
      rw [hok, Except.map] at hperform
      rw [SessionManager.step_of_error hperform]
      exact h
    | ok s' =>
      rw [hok, Except.map] at hperform
      rw [SessionManager.step_of_ok hperform]
      exact sound_put h ((h.sessions ref s hs).transition hok)

theorem Recorder.Sound.step {r : Recorder} (h : r.Sound) (op : Operation) : (r.step op).Sound := by
  obtain ⟨m, added⟩ := r
  cases op with
  | addMessage sessionId role content senderId metadata sentAt now =>
    exact sound_addMessage h sessionId role content senderId metadata sentAt now
  | _ => ?_
  all_goals
    unfold Recorder.step
    simp only [recorded, Option.toList_none, List.append_nil]
  case create sessionId ownerId tier context createdAt updatedAt =>
    cases hcreate : m.create sessionId ownerId tier context createdAt updatedAt with
    | error e => exact (@SessionManager.step_of_error _ (.create _ _ _ _ _ _) _ hcreate).symm ▸ h
    | ok m' => exact (@SessionManager.step_of_ok _ _ (.create _ _ _ _ _ _) hcreate).symm ▸ sound_create h hcreate
  case activate => exact sound_onSession rfl h fun s s' added hs hok => hs.transition hok
  case suspend => exact sound_onSession rfl h fun s s' added hs hok => hs.transition hok
  case terminate => exact sound_onSession rfl h fun s s' added hs hok => hs.transition hok
  case addParticipant => exact sound_onSession rfl h fun s s' added hs hok => hs.addParticipant hok
  case removeParticipant => exact sound_onSession rfl h fun s s' added hs hok => hs.removeParticipant hok
  case registerTask => exact sound_onSession rfl h fun s s' added hs hok => hs.registerTask hok
  case completeTask => exact sound_onSession rfl h fun s s' added hs hok => hs.completeTask hok
  case transition ref newState now => exact sound_transition h
  case cleanupIdle now clock =>
    refine ⟨h.sessions.cleanupIdle fun ref s hs => hs.suspendIdle, fun e he => ?_⟩
    rw [SessionManager.step_of_ok rfl, SessionManager.cleanupIdle_length]
    exact h.known e he
  case cleanupTerminated => exact ⟨h.sessions, h.known⟩

theorem sound_opened (idleTimeout : Int) : (Recorder.opened idleTimeout).Sound where
  sessions := by
    intro ref s hs
    simp [Recorder.opened] at hs
  known := by simp [Recorder.opened]

/-- In every run every session keeps within its bounds. -/
theorem sessions_sound (idleTimeout : Int) (ops : List Operation) :
    (Lib.run Recorder.step (.opened idleTimeout) ops).Sound :=
  Lib.run_invariant Recorder.Sound (fun _ op h => h.step op) (sound_opened idleTimeout) ops

/-! ## Finality -/

section Finality

variable {m : SessionManager} {op : Operation}

/-- No terminated session changes. -/
def FinalStep (m : SessionManager) (op : Operation) : Prop :=
  ∀ (ref : Nat) (s : Session), m.heap[ref]? = some s → s.state = .terminated → (m.step op).heap[ref]? = some s

/-- If the identifier names a terminated session, this holds of it. -/
def IfTerminated (m : SessionManager) (sessionId : String) (p : Session → Prop) : Prop :=
  ∀ ref s, m.get sessionId = .ok (ref, s) → s.state = .terminated → p s

/-- Who joins a terminated session is in it or finds it full, who leaves it is not in it; its tasks likewise. -/
def LeavesTerminated (m : SessionManager) : Operation → Prop
  | .addParticipant sessionId userId _ => IfTerminated m sessionId fun s =>
      s.constraints.maxParticipants ≤ s.participants.length ∨ userId ∈ s.participants
  | .removeParticipant sessionId userId _ => IfTerminated m sessionId fun s => userId ∉ s.participants
  | .registerTask sessionId taskId => IfTerminated m sessionId fun s =>
      s.constraints.maxConcurrentTasks ≤ s.activeTasks.length ∨ taskId ∈ s.activeTasks
  | .completeTask sessionId taskId => IfTerminated m sessionId fun s => taskId ∉ s.activeTasks
  | _ => True

/-- A terminated session moves nowhere. -/
theorem not_transition_ok {s s' : Session} {newState : SessionState} {now : Int} (h : s.state = .terminated) :
    s.transition newState now ≠ .ok s' := by
  intro hok
  have hin := (Session.transition_ok hok).1
  rw [h] at hin
  cases hin

theorem not_addMessage_ok {s s' : Session} {msg : SessionMessage} {now : Int} (h : s.state = .terminated) :
    s.addMessage msg now ≠ .ok s' := by
  intro hok
  have hactive := Session.isActive_of_ok hok
  simp [Session.isActive, h] at hactive

theorem suspendIdle_terminated {s : Session} (h : s.state = .terminated) (timeout now later : Int) :
    s.suspendIdle timeout now later = s := by
  simp [Session.suspendIdle, h]

/-- An operation on a session is final when what it does to a terminated one is nothing. -/
theorem final_onSession {sessionId : String} {body : Session → Except SessionError Session}
    (hperform : m.perform op = m.onSession sessionId body) :
    FinalStep m op ↔ IfTerminated m sessionId fun s => ∀ s', body s = .ok s' → s' = s := by
  constructor
  · intro h ref s hget hterminated s' hok
    have hheap := SessionManager.get_eq_ok hget
    have hstep : m.step op = m.put ref s' := by
      apply SessionManager.step_of_ok
      rw [hperform, SessionManager.onSession_of_get hget, hok, Except.map]
    have hsame := h ref s hheap hterminated
    rw [hstep, SessionManager.put_heap s' ref hheap, if_pos rfl] at hsame
    exact Option.some.inj hsame
  · intro h ref s hheap hterminated
    cases hresult : m.onSession sessionId body with
    | error e => rw [SessionManager.step_of_error (hperform.trans hresult), hheap]
    | ok m' =>
      rw [SessionManager.step_of_ok (hperform.trans hresult)]
      obtain ⟨i, t, t', hget, hok, rfl⟩ := SessionManager.onSession_eq_ok.mp hresult
      have hfound := SessionManager.get_eq_ok hget
      rw [SessionManager.put_heap t' ref hfound]
      split
      · next heq =>
        rw [heq, hfound] at hheap
        cases hheap
        rw [h i s hget hterminated t' hok]
      · exact hheap

theorem final_of_refused {sessionId : String} {body : Session → Except SessionError Session}
    (hperform : m.perform op = m.onSession sessionId body)
    (hbody : ∀ s s', s.state = .terminated → body s ≠ .ok s') : FinalStep m op :=
  (final_onSession hperform).mpr fun _ s _ hterminated s' hok => absurd hok (hbody s s' hterminated)

theorem ifTerminated_congr {sessionId : String} {p q : Session → Prop} (h : ∀ s, p s ↔ q s) :
    IfTerminated m sessionId p ↔ IfTerminated m sessionId q := by
  simp only [IfTerminated, h]

theorem addParticipant_final (s : Session) (sessionId userId : String) (now : Int) :
    (∀ s', s.addParticipant sessionId userId now = .ok s' → s' = s) ↔
      s.constraints.maxParticipants ≤ s.participants.length ∨ userId ∈ s.participants := by
  unfold Session.addParticipant
  split_ifs with hfull hin
  · exact iff_of_true (by simp) (.inl hfull)
  · exact iff_of_true (by simp) (.inr hin)
  · refine iff_of_false (fun h => ?_) (not_or.mpr ⟨hfull, hin⟩)
    have hsame := congrArg (·.participants) (h _ rfl)
    simp at hsame

theorem removeParticipant_final (s : Session) (userId : String) (now : Int) :
    (∀ s', s.removeParticipant userId now = .ok s' → s' = s) ↔ userId ∉ s.participants := by
  unfold Session.removeParticipant
  split
  · next hin =>
    refine iff_of_false (fun h => ?_) (not_not.mpr hin)
    have hsame := congrArg (·.participants.length) (h _ rfl)
    have hpos := List.length_pos_of_mem hin
    rw [List.length_erase_of_mem hin] at hsame
    omega
  · next hout => exact iff_of_true (by simp) hout

theorem registerTask_final (s : Session) (sessionId taskId : String) :
    (∀ s', s.registerTask sessionId taskId = .ok s' → s' = s) ↔
      s.constraints.maxConcurrentTasks ≤ s.activeTasks.length ∨ taskId ∈ s.activeTasks := by
  unfold Session.registerTask
  split_ifs with hfull hin
  · exact iff_of_true (by simp) (.inl hfull)
  · exact iff_of_true (by simp) (.inr hin)
  · refine iff_of_false (fun h => ?_) (not_or.mpr ⟨hfull, hin⟩)
    have hsame := congrArg (·.activeTasks) (h _ rfl)
    simp at hsame

theorem completeTask_final (s : Session) (taskId : String) :
    (∀ s', s.completeTask taskId = .ok s' → s' = s) ↔ taskId ∉ s.activeTasks := by
  unfold Session.completeTask
  split
  · next hin =>
    refine iff_of_false (fun h => ?_) (not_not.mpr hin)
    have hsame := congrArg (·.activeTasks.length) (h _ rfl)
    have hpos := List.length_pos_of_mem hin
    rw [List.length_erase_of_mem hin] at hsame
    omega
  · next hout => exact iff_of_true (by simp) hout

theorem final_create {sessionId ownerId : String} {tier : SessionTier} {context : Option (Dict Value)}
    {createdAt updatedAt : Int} : FinalStep m (.create sessionId ownerId tier context createdAt updatedAt) := by
  intro ref s hs _
  cases hresult : m.perform (.create sessionId ownerId tier context createdAt updatedAt) with
  | error e => rw [SessionManager.step_of_error hresult, hs]
  | ok m' =>
    rw [SessionManager.step_of_ok hresult]
    simp only [SessionManager.perform, SessionManager.create] at hresult
    split at hresult
    · cases hresult
    cases hresult
    rw [List.getElem?_append_left (List.getElem?_eq_some_iff.mp hs).1, hs]

theorem final_transition {ref : Nat} {newState : SessionState} {now : Int} :
    FinalStep m (.transition ref newState now) := by
  intro i s hs hterminated
  cases hfound : m.heap[ref]? with
  | none =>
    have hnone : m.perform (.transition ref newState now) = .ok m := by simp [SessionManager.perform, hfound]
    rw [SessionManager.step_of_ok hnone, hs]
  | some t =>
    have hperform := SessionManager.perform_transition newState now hfound
    cases hok : t.transition newState now with
    | error e =>
      rw [hok, Except.map] at hperform
      rw [SessionManager.step_of_error hperform, hs]
    | ok t' =>
      rw [hok, Except.map] at hperform
      rw [SessionManager.step_of_ok hperform, SessionManager.put_heap t' i hfound]
      split
      · next heq =>
        rw [heq, hfound] at hs
        cases hs
        exact absurd hok (not_transition_ok hterminated)
      · exact hs

/-- The sweep passes over every session that is not active. -/
theorem sweep_terminated {now : Int} {clock : Nat → Int} {ref : Nat} {s : Session} (hs : m.heap[ref]? = some s)
    (hterminated : s.state = .terminated) (i : Nat) : (m.sweep now clock i).heap[ref]? = some s := by
  unfold SessionManager.sweep
  split
  · exact hs
  · next t hfound =>
    rw [SessionManager.put_heap _ ref hfound]
    split
    · next heq =>
      rw [heq, hfound] at hs
      cases hs
      rw [suspendIdle_terminated hterminated]
    · exact hs

theorem final_cleanupIdle {now : Int} {clock : Nat → Int} : FinalStep m (.cleanupIdle now clock) := by
  intro ref s hs hterminated
  rw [SessionManager.step_of_ok rfl]
  unfold SessionManager.cleanupIdle
  generalize m.sessions.map (·.2) = refs
  induction refs generalizing m with
  | nil => exact hs
  | cons i refs ih => exact ih (sweep_terminated hs hterminated i)

/-- Only the participants and the tasks of a terminated session can still change. -/
theorem finalStep_iff : FinalStep m op ↔ LeavesTerminated m op := by
  cases op with
  | create => exact iff_of_true final_create trivial
  | activate => exact iff_of_true (final_of_refused rfl fun _ _ => not_transition_ok) trivial
  | suspend => exact iff_of_true (final_of_refused rfl fun _ _ => not_transition_ok) trivial
  | terminate => exact iff_of_true (final_of_refused rfl fun _ _ => not_transition_ok) trivial
  | transition => exact iff_of_true final_transition trivial
  | addMessage => exact iff_of_true (final_of_refused rfl fun _ _ => not_addMessage_ok) trivial
  | addParticipant sessionId userId now =>
    exact (final_onSession rfl).trans (ifTerminated_congr fun s => addParticipant_final s sessionId userId now)
  | removeParticipant sessionId userId now =>
    exact (final_onSession rfl).trans (ifTerminated_congr fun s => removeParticipant_final s userId now)
  | registerTask sessionId taskId =>
    exact (final_onSession rfl).trans (ifTerminated_congr fun s => registerTask_final s sessionId taskId)
  | completeTask sessionId taskId =>
    exact (final_onSession rfl).trans (ifTerminated_congr fun s => completeTask_final s taskId)
  | cleanupIdle => exact iff_of_true final_cleanupIdle trivial
  | cleanupTerminated => exact iff_of_true (fun _ _ hs _ => hs) trivial

end Finality

/-! ## Whole runs -/

/-- After every part of the run the bounds hold, and a session that is terminated then stays what it is. -/
structure BoundedAndFinal (r : Recorder) (ops : List Operation) : Prop where
  bounds : ∀ before, before <+: ops → (Lib.run Recorder.step r before).Sound
  final : ∀ before later rest, ops = before ++ later ++ rest → ∀ (ref : Nat) (s : Session),
    (Lib.run Recorder.step r before).manager.heap[ref]? = some s → s.state = .terminated →
      (Lib.run Recorder.step r (before ++ later)).manager.heap[ref]? = some s

/-- What each step leaves alone, a run does. -/
theorem run_final {r : Recorder} {ops : List Operation}
    (h : Lib.Admitted Recorder.step (fun r op => LeavesTerminated r.manager op) r ops) (ref : Nat) (s : Session)
    (hs : r.manager.heap[ref]? = some s) (hterminated : s.state = .terminated) :
    (Lib.run Recorder.step r ops).manager.heap[ref]? = some s :=
  h.invariant (fun r => r.manager.heap[ref]? = some s) hs fun _ _ hs hleaves =>
    finalStep_iff.mpr hleaves ref s hs hterminated

theorem bounded_and_final_iff (idleTimeout : Int) (ops : List Operation) :
    BoundedAndFinal (.opened idleTimeout) ops ↔
      Lib.Admitted Recorder.step (fun r op => LeavesTerminated r.manager op) (.opened idleTimeout) ops := by
  constructor
  · intro h
    rw [Lib.admitted_iff_forall]
    intro before op rest hsplit
    rw [← finalStep_iff]
    intro ref s hs hterminated
    have hlater := h.final before [op] rest (by rw [hsplit, List.append_assoc]; rfl) ref s hs hterminated
    rw [Lib.run_append] at hlater
    exact hlater
  · intro h
    refine ⟨fun before _ => sessions_sound idleTimeout before, ?_⟩
    intro before later rest hsplit ref s hs hterminated
    rw [hsplit, List.append_assoc, Lib.admitted_append, Lib.admitted_append] at h
    rw [Lib.run_append]
    exact run_final h.2.1 ref s hs hterminated

/-- A task is registered in a session that is terminated. -/
def lateTask : List Operation :=
  [.create "s1" "alice" .main none 0 0, .terminate "s1" 1, .registerTask "s1" "t1"]

theorem late_task_changes_terminated : ¬ BoundedAndFinal (.opened 3600000000) lateTask := by
  intro h
  have hkept := h.final (lateTask.take 2) (lateTask.drop 2) [] rfl 0 _ rfl rfl
  have htasks := congrArg (Option.map (·.activeTasks)) hkept
  revert htasks
  decide

end Occp.Sessions
