import Occp.Lib.Runs
import Occp.Lib.Except
import Occp.Text
import Mathlib.Data.List.DropRight
import Mathlib.Data.List.Nodup

/-!
# Sessions (`orchestrator/sessions.py`)

Times are microseconds. A session is an object that its callers may keep: the manager maps
identifiers to references into the list of all sessions made.
-/

namespace Occp.Sessions

inductive SessionTier where
  | main | dm | group | brain
  deriving DecidableEq

inductive SessionState where
  | created | active | suspended | terminated
  deriving DecidableEq

def SessionState.value : SessionState → String
  | created => "created"
  | active => "active"
  | suspended => "suspended"
  | terminated => "terminated"

structure TierConstraints where
  allowedStages : List String
  maxConcurrentTasks : Nat
  maxHistoryMessages : Nat
  canExecute : Bool
  canShip : Bool
  maxParticipants : Nat

def tierConstraints : SessionTier → TierConstraints
  | .main =>
    { allowedStages := ["plan", "gate", "execute", "validate", "ship"], maxConcurrentTasks := 5,
      maxHistoryMessages := 1000, canExecute := true, canShip := true, maxParticipants := 1 }
  | .dm =>
    { allowedStages := ["plan", "gate", "validate"], maxConcurrentTasks := 2, maxHistoryMessages := 500,
      canExecute := false, canShip := false, maxParticipants := 2 }
  | .group =>
    { allowedStages := ["plan", "gate", "execute", "validate", "ship"], maxConcurrentTasks := 3,
      maxHistoryMessages := 2000, canExecute := true, canShip := true, maxParticipants := 50 }
  | .brain =>
    { allowedStages := ["plan", "gate", "execute", "validate", "ship"], maxConcurrentTasks := 20,
      maxHistoryMessages := 5000, canExecute := true, canShip := true, maxParticipants := 1 }

/-- No tier is without room. -/
theorem tierConstraints_pos (tier : SessionTier) :
    0 < (tierConstraints tier).maxHistoryMessages ∧ 0 < (tierConstraints tier).maxParticipants := by
  cases tier <;> simp [tierConstraints]

structure SessionMessage where
  role : String
  content : String
  timestamp : Int
  senderId : String := ""
  metadata : Dict Value := []

def SessionMessage.of (role content senderId : String) (metadata : Option (Dict Value)) (sentAt : Int) : SessionMessage :=
  { role, content, timestamp := sentAt, senderId, metadata := metadata.getD [] }

inductive SessionError where
  | session (message : String)
  | notFound (sessionId : String)
  | state (message : String)
  | capacity (message : String)
  deriving DecidableEq

structure Session where
  sessionId : String
  ownerId : String
  tier : SessionTier
  state : SessionState := .created
  createdAt : Int
  updatedAt : Int
  suspendedAt : Option Int := none
  terminatedAt : Option Int := none
  participants : List String := []
  messages : List SessionMessage := []
  context : Dict Value := []
  activeTasks : List String := []

/-! ## One session -/

namespace Session

def validTransitions : SessionState → List SessionState
  | .created => [.active, .terminated]
  | .active => [.suspended, .terminated]
  | .suspended => [.active, .terminated]
  | .terminated => []

variable (s : Session)

def constraints : TierConstraints := tierConstraints s.tier

def isActive : Bool := s.state = .active

def transition (newState : SessionState) (now : Int) : Except SessionError Session :=
  if newState ∉ validTransitions s.state then
    .error (.state s!"Invalid transition: {s.state.value} → {newState.value}")
  else
    .ok { s with
      state := newState
      updatedAt := now
      suspendedAt := if newState = .suspended then some now else s.suspendedAt
      terminatedAt := if newState = .terminated then some now else s.terminatedAt }

/-- The history to which a message is added: the oldest make room. -/
def evicted : List SessionMessage :=
  if s.messages.length ≥ s.constraints.maxHistoryMessages then
    s.messages.drop (s.messages.length - s.constraints.maxHistoryMessages + 1)
  else s.messages

def addMessage (msg : SessionMessage) (now : Int) : Except SessionError Session :=
  if !s.isActive then .error (.state s!"Cannot add messages to session in state: {s.state.value}")
  else .ok { s with messages := s.evicted ++ [msg], updatedAt := now }

/-- No state of the session is asked for, here and in the three that follow. -/
def addParticipant (sessionId userId : String) (now : Int) : Except SessionError Session :=
  if s.participants.length ≥ s.constraints.maxParticipants then
    .error (.capacity s!"Session {sessionId} has reached max participants ({s.constraints.maxParticipants})")
  else if userId ∉ s.participants then .ok { s with participants := s.participants ++ [userId], updatedAt := now }
  else .ok s

def removeParticipant (userId : String) (now : Int) : Except SessionError Session :=
  if userId ∈ s.participants then .ok { s with participants := s.participants.erase userId, updatedAt := now }
  else .ok s

def registerTask (sessionId taskId : String) : Except SessionError Session :=
  if s.activeTasks.length ≥ s.constraints.maxConcurrentTasks then
    .error (.capacity s!"Session {sessionId} has reached max concurrent tasks ({s.constraints.maxConcurrentTasks})")
  else if taskId ∉ s.activeTasks then .ok { s with activeTasks := s.activeTasks ++ [taskId] }
  else .ok s

def completeTask (taskId : String) : Except SessionError Session :=
  if taskId ∈ s.activeTasks then .ok { s with activeTasks := s.activeTasks.erase taskId } else .ok s

/-- What an idle sweep does to one session. -/
def suspendIdle (timeout now later : Int) : Session :=
  if s.state ≠ .active then s
  else if now - s.updatedAt > timeout then (s.transition .suspended later).toOption.getD s
  else s

end Session

/-! ## The manager -/

structure SessionManager where
  idleTimeout : Int
  sessions : Dict Nat := []
  heap : List Session := []

namespace SessionManager

variable (m : SessionManager)

/-- The session with its reference. -/
def get (sessionId : String) : Except SessionError (Nat × Session) :=
  match m.sessions.get? sessionId with
  | none => .error (.notFound sessionId)
  | some ref =>
    match m.heap[ref]? with
    | none => .error (.notFound sessionId)
    | some s => .ok (ref, s)

def put (ref : Nat) (s : Session) : SessionManager := { m with heap := m.heap.set ref s }

/-- What the operations share: they get the session, then change it. -/
def onSession (sessionId : String) (body : Session → Except SessionError Session) :
    Except SessionError SessionManager := do
  let (ref, s) ← m.get sessionId
  let s' ← body s
  return m.put ref s'

def create (sessionId ownerId : String) (tier : SessionTier) (context : Option (Dict Value))
    (createdAt updatedAt : Int) : Except SessionError SessionManager :=
  if (Text.strip ownerId.toList).isEmpty then .error (.session "owner_id must not be empty")
  else
    let session : Session :=
      { sessionId, ownerId, tier, createdAt, updatedAt, participants := [ownerId], context := context.getD [] }
    .ok { m with sessions := m.sessions.set sessionId m.heap.length, heap := m.heap ++ [session] }

def activate (sessionId : String) (now : Int) : Except SessionError SessionManager :=
  m.onSession sessionId fun s => s.transition .active now

def suspend (sessionId : String) (now : Int) : Except SessionError SessionManager :=
  m.onSession sessionId fun s => s.transition .suspended now

def terminate (sessionId : String) (now : Int) : Except SessionError SessionManager :=
  m.onSession sessionId fun s => s.transition .terminated now

def addMessage (sessionId role content senderId : String) (metadata : Option (Dict Value)) (sentAt now : Int) :
    Except SessionError SessionManager :=
  m.onSession sessionId fun s => s.addMessage (SessionMessage.of role content senderId metadata sentAt) now

def addParticipant (sessionId userId : String) (now : Int) : Except SessionError SessionManager :=
  m.onSession sessionId fun s => s.addParticipant sessionId userId now

def removeParticipant (sessionId userId : String) (now : Int) : Except SessionError SessionManager :=
  m.onSession sessionId fun s => s.removeParticipant userId now

def registerTask (sessionId taskId : String) : Except SessionError SessionManager :=
  m.onSession sessionId fun s => s.registerTask sessionId taskId

def completeTask (sessionId taskId : String) : Except SessionError SessionManager :=
  m.onSession sessionId fun s => s.completeTask taskId

def sweep (now : Int) (clock : Nat → Int) (ref : Nat) : SessionManager :=
  match m.heap[ref]? with
  | none => m
  | some s => m.put ref (s.suspendIdle m.idleTimeout now (clock ref))

/-- Every suspension reads the clock again. -/
def cleanupIdle (now : Int) (clock : Nat → Int) : SessionManager :=
  (m.sessions.map (·.2)).foldl (fun m ref => m.sweep now clock ref) m

/-- The sessions are forgotten; a caller that holds one still does. -/
def cleanupTerminated : SessionManager :=
  { m with sessions := m.sessions.filter fun e => (m.heap[e.2]?.map (·.state)) ≠ some .terminated }

end SessionManager

inductive Operation where
  | create (sessionId ownerId : String) (tier : SessionTier) (context : Option (Dict Value))
      (createdAt updatedAt : Int)
  | activate (sessionId : String) (now : Int)
  | suspend (sessionId : String) (now : Int)
  | terminate (sessionId : String) (now : Int)
  /-- `Session.transition`, by a caller that holds the session. -/
  | transition (ref : Nat) (newState : SessionState) (now : Int)
  | addMessage (sessionId role content senderId : String) (metadata : Option (Dict Value)) (sentAt now : Int)
  | addParticipant (sessionId userId : String) (now : Int)
  | removeParticipant (sessionId userId : String) (now : Int)
  | registerTask (sessionId taskId : String)
  | completeTask (sessionId taskId : String)
  | cleanupIdle (now : Int) (clock : Nat → Int)
  | cleanupTerminated

namespace SessionManager

def perform (m : SessionManager) : Operation → Except SessionError SessionManager
  | .create sessionId ownerId tier context createdAt updatedAt =>
    m.create sessionId ownerId tier context createdAt updatedAt
  | .activate sessionId now => m.activate sessionId now
  | .suspend sessionId now => m.suspend sessionId now
  | .terminate sessionId now => m.terminate sessionId now
  | .transition ref newState now =>
    match m.heap[ref]? with
    | none => .ok m
    | some s => do
      let s' ← s.transition newState now
      return m.put ref s'
  | .addMessage sessionId role content senderId metadata sentAt now =>
    m.addMessage sessionId role content senderId metadata sentAt now
  | .addParticipant sessionId userId now => m.addParticipant sessionId userId now
  | .removeParticipant sessionId userId now => m.removeParticipant sessionId userId now
  | .registerTask sessionId taskId => m.registerTask sessionId taskId
  | .completeTask sessionId taskId => m.completeTask sessionId taskId
  | .cleanupIdle now clock => .ok (m.cleanupIdle now clock)
  | .cleanupTerminated => .ok m.cleanupTerminated

/-- An operation that raises has changed nothing. -/
def step (m : SessionManager) (op : Operation) : SessionManager :=
  match m.perform op with
  | .ok m' => m'
  | .error _ => m

theorem step_of_ok {m m' : SessionManager} {op : Operation} (h : m.perform op = .ok m') : m.step op = m' := by
  simp [step, h]

theorem step_of_error {m : SessionManager} {op : Operation} {e : SessionError} (h : m.perform op = .error e) :
    m.step op = m := by
  simp [step, h]

end SessionManager

/-! ## What each change of a session keeps -/

namespace Session

/-- The bounds of the tier, when these messages have been added. -/
structure Sound (s : Session) (added : List SessionMessage) : Prop where
  participants_nodup : s.participants.Nodup
  participants_le : s.participants.length ≤ s.constraints.maxParticipants
  tasks_nodup : s.activeTasks.Nodup
  tasks_le : s.activeTasks.length ≤ s.constraints.maxConcurrentTasks
  messages_le : s.messages.length ≤ s.constraints.maxHistoryMessages
  history : s.messages = added.rtake s.constraints.maxHistoryMessages

variable {s s' : Session} {added : List SessionMessage} {now later timeout : Int}

theorem transition_ok {newState : SessionState} (h : s.transition newState now = .ok s') :
    newState ∈ validTransitions s.state ∧ s'.tier = s.tier ∧ s'.participants = s.participants ∧
      s'.messages = s.messages ∧ s'.activeTasks = s.activeTasks := by
  unfold transition at h
  split at h
  · cases h
  · next hin =>
    cases h
    exact ⟨not_not.mp hin, rfl, rfl, rfl, rfl⟩

theorem Sound.transition {newState : SessionState} (hs : s.Sound added) (h : s.transition newState now = .ok s') :
    s'.Sound added := by
  obtain ⟨-, htier, hparticipants, hmessages, htasks⟩ := transition_ok h
  have hconstraints : s'.constraints = s.constraints := congrArg tierConstraints htier
  exact
    { participants_nodup := hparticipants ▸ hs.participants_nodup
      participants_le := by rw [hparticipants, hconstraints]; exact hs.participants_le
      tasks_nodup := htasks ▸ hs.tasks_nodup
      tasks_le := by rw [htasks, hconstraints]; exact hs.tasks_le
      messages_le := by rw [hmessages, hconstraints]; exact hs.messages_le
      history := by rw [hmessages, hconstraints]; exact hs.history }

/-- Making room and adding one keeps the most recent. -/
theorem evict_rtake (l : List SessionMessage) (msg : SessionMessage) (max : Nat) (hmax : 0 < max) :
    (if (l.rtake max).length ≥ max then (l.rtake max).drop ((l.rtake max).length - max + 1) else l.rtake max) ++ [msg] =
      (l ++ [msg]).rtake max := by
  have hlength : (l.rtake max).length = min max l.length := by
    rw [List.rtake, List.length_drop]
    omega
  rw [hlength]
  unfold List.rtake
  split
  · have hfull : min max l.length - max + 1 = 1 := by omega
    rw [hfull, List.drop_drop, ← List.drop_append_of_le_length (by omega), List.length_append]
    congr 1
    simp only [List.length_singleton]
    omega
  · have hall : l.length - max = 0 := by omega
    have hall' : (l ++ [msg]).length - max = 0 := by
      simp only [List.length_append, List.length_singleton]
      omega
    rw [hall, hall', List.drop_zero, List.drop_zero]

theorem isActive_of_ok {msg : SessionMessage} (h : s.addMessage msg now = .ok s') : s.isActive = true := by
  unfold Session.addMessage at h
  split at h
  · cases h
  · next hactive => simpa using hactive

theorem not_isActive_of_error {msg : SessionMessage} {e : SessionError} (h : s.addMessage msg now = .error e) :
    ¬ s.isActive = true := by
  unfold Session.addMessage at h
  split at h
  · next hactive => simpa using hactive
  · cases h

theorem Sound.addMessage {msg : SessionMessage} (hs : s.Sound added) (h : s.addMessage msg now = .ok s') :
    s'.Sound (added ++ [msg]) := by
  unfold Session.addMessage at h
  split at h
  · cases h
  cases h
  have hkept : s.evicted ++ [msg] = (added ++ [msg]).rtake s.constraints.maxHistoryMessages := by
    unfold evicted
    rw [hs.history]
    exact evict_rtake added msg _ (tierConstraints_pos s.tier).1
  have hle : (s.evicted ++ [msg]).length ≤ s.constraints.maxHistoryMessages := by
    rw [hkept, List.rtake, List.length_drop]
    omega
  exact { hs with messages_le := hle, history := hkept }

/-- Where there is room, something new may be added. -/
theorem nodup_concat_le {l : List String} {x : String} {max : Nat} (hl : l.Nodup) (hroom : ¬ l.length ≥ max)
    (hnew : x ∉ l) : (l ++ [x]).Nodup ∧ (l ++ [x]).length ≤ max := by
  constructor
  · rw [← List.concat_eq_append, List.nodup_concat]
    exact ⟨hnew, hl⟩
  · simp only [List.length_append, List.length_singleton]
    omega

theorem nodup_erase_le {l : List String} (x : String) {max : Nat} (hl : l.Nodup) (hle : l.length ≤ max) :
    (l.erase x).Nodup ∧ (l.erase x).length ≤ max :=
  ⟨hl.erase x, List.erase_sublist.length_le.trans hle⟩

theorem Sound.addParticipant {sessionId userId : String} (hs : s.Sound added)
    (h : s.addParticipant sessionId userId now = .ok s') : s'.Sound added := by
  unfold Session.addParticipant at h
  split_ifs at h with hfull hold
  · cases h
    exact hs
  · cases h
    obtain ⟨hnodup, hle⟩ := nodup_concat_le hs.participants_nodup hfull hold
    exact { hs with participants_nodup := hnodup, participants_le := hle }

theorem Sound.removeParticipant {userId : String} (hs : s.Sound added)
    (h : s.removeParticipant userId now = .ok s') : s'.Sound added := by
  unfold Session.removeParticipant at h
  split at h
  · cases h
    obtain ⟨hnodup, hle⟩ := nodup_erase_le userId hs.participants_nodup hs.participants_le
    exact { hs with participants_nodup := hnodup, participants_le := hle }
  · cases h
    exact hs

theorem Sound.registerTask {sessionId taskId : String} (hs : s.Sound added)
    (h : s.registerTask sessionId taskId = .ok s') : s'.Sound added := by
  unfold Session.registerTask at h
  split_ifs at h with hfull hold
  · cases h
    exact hs
  · cases h
    obtain ⟨hnodup, hle⟩ := nodup_concat_le hs.tasks_nodup hfull hold
    exact { hs with tasks_nodup := hnodup, tasks_le := hle }

theorem Sound.completeTask {taskId : String} (hs : s.Sound added) (h : s.completeTask taskId = .ok s') :
    s'.Sound added := by
  unfold Session.completeTask at h
  split at h
  · cases h
    obtain ⟨hnodup, hle⟩ := nodup_erase_le taskId hs.tasks_nodup hs.tasks_le
    exact { hs with tasks_nodup := hnodup, tasks_le := hle }
  · cases h
    exact hs

theorem suspendIdle_cases : s.suspendIdle timeout now later = s ∨
    s.transition .suspended later = .ok (s.suspendIdle timeout now later) := by
  unfold suspendIdle
  split_ifs with hactive
  · exact .inl rfl
  · cases h : s.transition .suspended later with
    | ok s' => exact .inr rfl
    | error e => exact .inl rfl
  · exact .inl rfl

theorem Sound.suspendIdle (hs : s.Sound added) : (s.suspendIdle timeout now later).Sound added := by
  have hcases : s.suspendIdle timeout now later = s ∨
      s.transition .suspended later = .ok (s.suspendIdle timeout now later) := suspendIdle_cases
  rcases hcases with h | h
  · rw [h]
    exact hs
  · exact hs.transition h

end Session

/-! ## The sessions of a manager -/

namespace SessionManager

variable {m m' : SessionManager} {P : Nat → Session → Prop} {ref : Nat} {s : Session}

def Every (P : Nat → Session → Prop) (m : SessionManager) : Prop := ∀ ref s, m.heap[ref]? = some s → P ref s

theorem get_eq_ok {sessionId : String} (h : m.get sessionId = .ok (ref, s)) : m.heap[ref]? = some s := by
  unfold get at h
  split at h
  · cases h
  · split at h
    · cases h
    · next hs =>
      cases h
      exact hs

theorem onSession_of_error {sessionId : String} {body : Session → Except SessionError Session} {e : SessionError}
    (h : m.get sessionId = .error e) : m.onSession sessionId body = .error e := by
  rw [onSession, h]
  rfl

theorem onSession_of_get {sessionId : String} {body : Session → Except SessionError Session}
    (h : m.get sessionId = .ok (ref, s)) : m.onSession sessionId body = (body s).map (m.put ref) := by
  simp only [onSession, h, Lib.Except.ok_bind]
  cases body s <;> rfl

theorem perform_transition (newState : SessionState) (now : Int) (h : m.heap[ref]? = some s) :
    m.perform (.transition ref newState now) = (s.transition newState now).map (m.put ref) := by
  simp only [perform, h]
  cases s.transition newState now <;> rfl

theorem onSession_eq_ok {sessionId : String} {body : Session → Except SessionError Session} :
    m.onSession sessionId body = .ok m' ↔
      ∃ ref s s', m.get sessionId = .ok (ref, s) ∧ body s = .ok s' ∧ m' = m.put ref s' := by
  unfold onSession
  simp only [Lib.Except.bind_eq_ok, Lib.Except.pure_eq_ok, Prod.exists]
  constructor
  · rintro ⟨ref, s, hget, s', hbody, rfl⟩
    exact ⟨ref, s, s', hget, hbody, rfl⟩
  · rintro ⟨ref, s, s', hget, hbody, rfl⟩
    exact ⟨ref, s, hget, s', hbody, rfl⟩

theorem put_heap (s' : Session) (i : Nat) (h : m.heap[ref]? = some s) :
    (m.put ref s').heap[i]? = if i = ref then some s' else m.heap[i]? := by
  have hlt : ref < m.heap.length := (List.getElem?_eq_some_iff.mp h).1
  simp only [put, List.getElem?_set, hlt, if_true, eq_comm]

@[simp] theorem put_length (s' : Session) : (m.put ref s').heap.length = m.heap.length := by
  simp [put]

theorem Every.put (h : m.Every P) (hs : P ref s) : (m.put ref s).Every P := by
  intro i t ht
  by_cases hi : ref < m.heap.length
  · simp only [SessionManager.put, List.getElem?_set, hi, if_true] at ht
    split at ht
    · next heq =>
      cases ht
      exact heq ▸ hs
    · exact h i t ht
  · rw [SessionManager.put, List.set_eq_of_length_le (Nat.le_of_not_lt hi)] at ht
    exact h i t ht

theorem Every.sweep {now : Int} {clock : Nat → Int} (h : m.Every P)
    (hidle : ∀ ref s, P ref s → P ref (s.suspendIdle m.idleTimeout now (clock ref))) (ref : Nat) :
    (m.sweep now clock ref).Every P := by
  unfold SessionManager.sweep
  split
  · exact h
  · next s hs => exact h.put (hidle ref s (h ref s hs))

@[simp] theorem sweep_idleTimeout (now : Int) (clock : Nat → Int) (ref : Nat) :
    (m.sweep now clock ref).idleTimeout = m.idleTimeout := by
  unfold sweep
  split <;> rfl

@[simp] theorem sweep_length (now : Int) (clock : Nat → Int) (ref : Nat) :
    (m.sweep now clock ref).heap.length = m.heap.length := by
  unfold sweep
  split <;> simp

@[simp] theorem cleanupIdle_length (now : Int) (clock : Nat → Int) :
    (m.cleanupIdle now clock).heap.length = m.heap.length := by
  unfold cleanupIdle
  generalize m.sessions.map (·.2) = refs
  induction refs generalizing m with
  | nil => rfl
  | cons ref refs ih => simp [ih]

theorem Every.cleanupIdle {now : Int} {clock : Nat → Int} (h : m.Every P)
    (hidle : ∀ ref s, P ref s → P ref (s.suspendIdle m.idleTimeout now (clock ref))) :
    (m.cleanupIdle now clock).Every P := by
  unfold SessionManager.cleanupIdle
  generalize m.sessions.map (·.2) = refs
  induction refs generalizing m with
  | nil => exact h
  | cons ref refs ih => exact ih (h.sweep hidle ref) (by simpa using hidle)

end SessionManager

end Occp.Sessions
