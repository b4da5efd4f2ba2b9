import Occp.Lib.Runs
import Occp.Text

/-!
# Projects (`orchestrator/project_manager.py`)

A project is changed in place, one field after the other. The lock of the manager makes each
operation a step of its own. The tasks and workflows of a project are left out.
-/

namespace Occp.Orchestrator

inductive ProjectStatus where
  | active
  | paused
  | completed
  | archived
  deriving DecidableEq

namespace ProjectStatus

def value : ProjectStatus → String
  | active => "active"
  | paused => "paused"
  | completed => "completed"
  | archived => "archived"

/-- A look into `_VALID_STATUSES`. -/
def ofValue? (s : String) : Option ProjectStatus := [active, paused, completed, archived].find? (·.value = s)

@[simp] theorem ofValue?_value (s : ProjectStatus) : ofValue? s.value = some s := by
  cases s <;> decide

end ProjectStatus

structure Project where
  projectId : String
  name : Value
  description : Value
  status : ProjectStatus
  assignedAgents : List String := []
  priority : Value := .int 5
  createdAt : Nat
  updatedAt : Nat
  metadata : Value := .dict []

/-- The test of a priority, at creation and in an update. -/
def checkPriority (text : Value → String) (priority : Value) : Except PyError Unit :=
  match priority.num? with
  | some q =>
    if 1 ≤ q ∧ q ≤ 10 then .ok ()
    else .error (.valueError s!"Priority must be 1-10, got {Text.inserted text priority}")
  | none => .error (.typeError s!"'<=' not supported between instances of 'int' and '{priority.typeName}'")

/-- A field of a project, with a value that has passed the test for it. -/
inductive ProjectField where
  | name (value : Value)
  | description (value : Value)
  | status (value : ProjectStatus)
  | priority (value : Value)
  | metadata (value : Value)

namespace ProjectField

def key : ProjectField → String
  | name _ => "name"
  | description _ => "description"
  | status _ => "status"
  | priority _ => "priority"
  | metadata _ => "metadata"

/-- The tests that `update_project` puts one keyword argument to. -/
def ofItem (text : Value → String) (item : String × Value) : Except PyError ProjectField :=
  let (key, value) := item
  if key = "name" then .ok (.name value)
  else if key = "description" then .ok (.description value)
  else if key = "metadata" then .ok (.metadata value)
  else if key = "priority" then (checkPriority text value).map fun _ => .priority value
  else if key = "status" then
    match value with
    | .list _ | .dict _ => .error (.typeError s!"unhashable type: '{value.typeName}'")
    | .str s =>
      match ProjectStatus.ofValue? s with
      | some known => .ok (.status known)
      | none => .error (.valueError s!"Invalid status: {s}")
    | _ => .error (.valueError s!"Invalid status: {text value}")
  else .error (.valueError s!"Cannot update field: {key}")

end ProjectField

/-- Keyword arguments: each name once, and none that is already a parameter. -/
structure Kwargs where
  items : List (String × Value)
  nodup : (items.map (·.1)).Nodup
  free : ∀ item ∈ items, item.1 ≠ "self" ∧ item.1 ≠ "project_id"

def Kwargs.archived : Kwargs := ⟨[("status", .str "archived")], by simp, by simp⟩

namespace Project

def setattr (p : Project) : ProjectField → Project
  | .name value => { p with name := value }
  | .description value => { p with description := value }
  | .status value => { p with status := value }
  | .priority value => { p with priority := value }
  | .metadata value => { p with metadata := value }

/-- The loop of `update_project`, with the exception that ends it. What was set stays set. -/
def setFields (text : Value → String) (p : Project) : List (String × Value) → Project × Option PyError
  | [] => (p, none)
  | item :: items =>
    match ProjectField.ofItem text item with
    | .error e => (p, some e)
    | .ok field => setFields text (p.setattr field) items

end Project

structure ProjectManager where
  maxProjects : Int := 10
  projects : Dict Project := []

inductive ProjectOp where
  | create (projectId : String) (name description : Value) (agents : List String) (priority metadata : Value) (now : Nat)
  | update (projectId : String) (kwargs : Kwargs) (now : Nat)
  | archive (projectId : String) (now : Nat)
  | assignAgent (projectId agentId : String) (now : Nat)
  | removeAgent (projectId agentId : String) (now : Nat)

namespace ProjectManager

/-- The projects that are not archived. -/
def projectCount (m : ProjectManager) : Nat := m.projects.countP fun e => e.2.status ≠ .archived

def limitError (m : ProjectManager) : PyError :=
  .other "ProjectLimitError" s!"Maximum {m.maxProjects} active projects reached (current: {m.projectCount})"

def notFoundError (projectId : String) : PyError :=
  .other "ProjectNotFoundError" s!"Project '{projectId}' not found"

def createProject (text : Value → String) (m : ProjectManager) (projectId : String) (name description : Value)
    (agents : List String) (priority metadata : Value) (now : Nat) : ProjectManager × Except PyError Project :=
  if m.projectCount ≥ m.maxProjects then (m, .error m.limitError)
  else
    match checkPriority text priority with
    | .error e => (m, .error e)
    | .ok () =>
      let project : Project :=
        { projectId, name, description, status := .active, assignedAgents := agents, priority, createdAt := now,
          updatedAt := now, metadata := if metadata.truthy then metadata else .dict [] }
      ({ m with projects := m.projects.set projectId project }, .ok project)

/-- What an operation on one project makes of it, in place, and how it ends. -/
def onProject (m : ProjectManager) (projectId : String) (change : Project → Project × Option PyError) :
    ProjectManager × Except PyError Project :=
  match m.projects.get? projectId with
  | none => (m, .error (notFoundError projectId))
  | some project =>
    let (project, error) := change project
    ({ m with projects := m.projects.set projectId project },
      match error with
      | some e => .error e
      | none => .ok project)

def updateProject (text : Value → String) (m : ProjectManager) (projectId : String) (kwargs : Kwargs) (now : Nat) :
    ProjectManager × Except PyError Project :=
  m.onProject projectId fun project =>
    match project.setFields text kwargs.items with
    | (project, some e) => (project, some e)
    | (project, none) => ({ project with updatedAt := now }, none)

def archiveProject (text : Value → String) (m : ProjectManager) (projectId : String) (now : Nat) :
    ProjectManager × Except PyError Project :=
  m.updateProject text projectId .archived now

def assignAgent (m : ProjectManager) (projectId agentId : String) (now : Nat) :
    ProjectManager × Except PyError Project :=
  m.onProject projectId fun project =>
    if agentId ∈ project.assignedAgents then (project, none)
    else ({ project with assignedAgents := project.assignedAgents ++ [agentId], updatedAt := now }, none)

def removeAgent (m : ProjectManager) (projectId agentId : String) (now : Nat) :
    ProjectManager × Except PyError Project :=
  m.onProject projectId fun project =>
    if agentId ∈ project.assignedAgents then
      ({ project with assignedAgents := project.assignedAgents.erase agentId, updatedAt := now }, none)
    else (project, some (.valueError s!"Agent '{agentId}' not assigned to project '{projectId}'"))

def perform (text : Value → String) (m : ProjectManager) : ProjectOp → ProjectManager × Except PyError Project
  | .create projectId name description agents priority metadata now =>
    m.createProject text projectId name description agents priority metadata now
  | .update projectId kwargs now => m.updateProject text projectId kwargs now
  | .archive projectId now => m.archiveProject text projectId now
  | .assignAgent projectId agentId now => m.assignAgent projectId agentId now
  | .removeAgent projectId agentId now => m.removeAgent projectId agentId now

def step (text : Value → String) (m : ProjectManager) (op : ProjectOp) : ProjectManager := (m.perform text op).1

end ProjectManager

/-! ## What an update sets -/

namespace ProjectField

/-- The arguments that are set, up to the first one that is refused. -/
def accepted (text : Value → String) : List (String × Value) → List ProjectField
  | [] => []
  | item :: items =>
    match ofItem text item with
    | .error _ => []
    | .ok field => field :: accepted text items

/-- The refusal of the first argument that is refused. -/
def refusal? (text : Value → String) : List (String × Value) → Option PyError
  | [] => none
  | item :: items =>
    match ofItem text item with
    | .error e => some e
    | .ok _ => refusal? text items

variable {text : Value → String}

theorem key_of_ofItem {item : String × Value} {field : ProjectField} (h : ofItem text item = .ok field) :
    field.key = item.1 := by
  obtain ⟨key, value⟩ := item
  unfold ofItem at h
  dsimp only at h ⊢
  split_ifs at h with hname hdescription hmetadata hpriority hstatus
  · cases h
    exact hname.symm
  · cases h
    exact hdescription.symm
  · cases h
    exact hmetadata.symm
  · cases hchecked : checkPriority text value with
    | error e =>
      rw [hchecked] at h
      cases h
    | ok u =>
      rw [hchecked] at h
      cases h
      exact hpriority.symm
  · split at h
    · cases h
    · cases h
    · split at h
      · cases h
        exact hstatus.symm
      · cases h
    · cases h

theorem keys_accepted (items : List (String × Value)) :
    ((accepted text items).map key).Sublist (items.map (·.1)) := by
  induction items with
  | nil => exact List.Sublist.slnil
  | cons item items ih =>
    rw [accepted]
    cases h : ofItem text item with
    | error e => exact List.nil_sublist _
    | ok field =>
      rw [List.map_cons, List.map_cons, key_of_ofItem h]
      exact ih.cons_cons _

end ProjectField

namespace Project

variable {text : Value → String} {p : Project}

/-- The field already has the value. -/
def Holds (p : Project) : ProjectField → Prop
  | .name value => p.name = value
  | .description value => p.description = value
  | .status value => p.status = value
  | .priority value => p.priority = value
  | .metadata value => p.metadata = value

theorem setattr_eq_self_iff (p : Project) (field : ProjectField) : p.setattr field = p ↔ p.Holds field := by
  obtain ⟨⟩ := p
  cases field <;> simp [setattr, Holds, eq_comm]

theorem holds_setattr (p : Project) (field : ProjectField) : (p.setattr field).Holds field := by
  cases field <;> rfl

theorem holds_setattr_of_ne {field other : ProjectField} (h : field.key ≠ other.key) :
    (p.setattr field).Holds other ↔ p.Holds other := by
  cases field <;> cases other <;> first | exact Iff.rfl | exact absurd rfl h

theorem setFields_eq (p : Project) (items : List (String × Value)) :
    p.setFields text items = ((ProjectField.accepted text items).foldl setattr p, ProjectField.refusal? text items) := by
  induction items generalizing p with
  | nil => rfl
  | cons item items ih =>
    rw [setFields, ProjectField.accepted, ProjectField.refusal?]
    cases ProjectField.ofItem text item with
    | error e => rfl
    | ok field => exact ih (p.setattr field)

theorem holds_foldl_of_notMem {fields : List ProjectField} {other : ProjectField} (h : other.key ∉ fields.map (·.key)) :
    (fields.foldl setattr p).Holds other ↔ p.Holds other := by
  induction fields generalizing p with
  | nil => rfl
  | cons field fields ih =>
    rw [List.map_cons, List.mem_cons, not_or] at h
    rw [List.foldl_cons, ih h.2, holds_setattr_of_ne (Ne.symm h.1)]

/-- A field that is set once has its value in the end. -/
theorem holds_foldl {fields : List ProjectField} (hnodup : (fields.map (·.key)).Nodup) {field : ProjectField}
    (h : field ∈ fields) : (fields.foldl setattr p).Holds field := by
  induction fields generalizing p with
  | nil => exact absurd h List.not_mem_nil
  | cons first fields ih =>
    rw [List.map_cons, List.nodup_cons] at hnodup
    rcases List.mem_cons.mp h with rfl | h
    · rw [List.foldl_cons, holds_foldl_of_notMem hnodup.1]
      exact holds_setattr p field
    · exact ih hnodup.2 h

theorem foldl_eq_self_iff {fields : List ProjectField} (hnodup : (fields.map (·.key)).Nodup) :
    fields.foldl setattr p = p ↔ ∀ field ∈ fields, p.Holds field := by
  constructor
  · intro h field hfield
    have hlast := @holds_foldl p fields hnodup field hfield
    rwa [h] at hlast
  · intro h
    clear hnodup
    induction fields with
    | nil => rfl
    | cons first fields ih =>
      rw [List.foldl_cons, (setattr_eq_self_iff p first).mpr (h first List.mem_cons_self)]
      exact ih fun field hfield => h field (List.mem_cons_of_mem _ hfield)

/-- An archived project is archived afterwards unless a status is set. -/
theorem foldl_status_iff (hp : p.status = .archived) {fields : List ProjectField}
    (hnodup : (fields.map (·.key)).Nodup) :
    (fields.foldl setattr p).status ≠ .archived ↔ ∃ s, .status s ∈ fields ∧ s ≠ .archived := by
  constructor
  · intro h
    by_cases hkey : "status" ∈ fields.map (·.key)
    · obtain ⟨field, hfield, hstatus⟩ := List.mem_map.mp hkey
      cases field with
      | status s =>
        have hs : (fields.foldl setattr p).status = s := holds_foldl hnodup hfield
        exact ⟨s, hfield, hs ▸ h⟩
      | _ => simp [ProjectField.key] at hstatus
    · have hsame : (fields.foldl setattr p).Holds (.status .archived) := (holds_foldl_of_notMem hkey).mpr hp
      exact absurd hsame h
  · rintro ⟨s, hs, hne⟩ h
    have hlast : (fields.foldl setattr p).status = s := holds_foldl hnodup hs
    exact hne (hlast.symm.trans h)

end Project

/-! ## The limit, and updates that are refused -/

theorem countP_set {α : Type} (q : α → Bool) (d : Dict α) (key : String) (v : α) :
    (d.set key v).countP (fun e => q e.2) + (if (d.get? key).any q then 1 else 0) =
      d.countP (fun e => q e.2) + (if q v then 1 else 0) := by
  induction d with
  | nil => simp [Dict.set, List.countP_cons]
  | cons e rest ih =>
    obtain ⟨k, w⟩ := e
    unfold Dict.set Dict.get?
    by_cases hk : k = key
    · simp only [if_pos hk, Option.any_some, List.countP_cons]
      omega
    · simp only [if_neg hk, List.countP_cons]
      omega

namespace ProjectManager

variable {text : Value → String} {m : ProjectManager} {projectId : String} {p : Project}

def new (maxProjects : Int) : ProjectManager := { maxProjects }

theorem onProject_projects (change : Project → Project × Option PyError) (h : m.projects.get? projectId = some p) :
    (m.onProject projectId change).1 = { m with projects := m.projects.set projectId (change p).1 } := by
  rw [onProject, h]

theorem onProject_missing (change : Project → Project × Option PyError) (h : m.projects.get? projectId = none) :
    (m.onProject projectId change).1 = m := by
  rw [onProject, h]

@[simp] theorem onProject_maxProjects (change : Project → Project × Option PyError) :
    (m.onProject projectId change).1.maxProjects = m.maxProjects := by
  cases h : m.projects.get? projectId with
  | none => rw [onProject_missing change h]
  | some p => rw [onProject_projects change h]

theorem projectCount_set (m : ProjectManager) (projectId : String) (p : Project) :
    projectCount { m with projects := m.projects.set projectId p } +
        (if (m.projects.get? projectId).any (·.status ≠ .archived) then 1 else 0) =
      m.projectCount + (if p.status ≠ .archived then 1 else 0) := by
  have hcount := countP_set (fun p : Project => decide (p.status ≠ .archived)) m.projects projectId p
  simpa [projectCount] using hcount

/-- A change that takes nothing out of the archive adds nothing to the count. -/
theorem projectCount_onProject (change : Project → Project × Option PyError)
    (h : ∀ p, m.projects.get? projectId = some p → p.status = .archived → (change p).1.status = .archived) :
    (m.onProject projectId change).1.projectCount ≤ m.projectCount := by
  cases hp : m.projects.get? projectId with
  | none => rw [onProject_missing change hp]
  | some p =>
    have hcount := projectCount_set m projectId (change p).1
    rw [onProject_projects change hp]
    have hkept := h p hp
    simp only [hp, Option.any_some, decide_eq_true_eq] at hcount
    by_cases hs : p.status = .archived
    · rw [if_neg (by simpa using hs), if_neg (by simpa using hkept hs)] at hcount
      omega
    · rw [if_pos hs] at hcount
      split at hcount <;> omega

/-- An operation that keeps to the limit, and that changes nothing when it raises. -/
def Kept (m : ProjectManager) (outcome : ProjectManager × Except PyError Project) : Prop :=
  outcome.1.projectCount ≤ m.maxProjects ∧ ∀ e, outcome.2 = .error e → outcome.1 = m

/-- Nothing is set to another value before an argument is refused, and a project leaves the
archive only below the limit. -/
def MeetsUpdate (text : Value → String) (m : ProjectManager) (projectId : String) (kwargs : Kwargs) : Prop :=
  ∀ p, m.projects.get? projectId = some p →
    (ProjectField.refusal? text kwargs.items ≠ none → ∀ field ∈ ProjectField.accepted text kwargs.items, p.Holds field) ∧
    (p.status = .archived → (∃ s, .status s ∈ ProjectField.accepted text kwargs.items ∧ s ≠ .archived) →
      m.projectCount < m.maxProjects)

def Meets (text : Value → String) (m : ProjectManager) : ProjectOp → Prop
  | .update projectId kwargs _ => m.MeetsUpdate text projectId kwargs
  | _ => True

theorem kept_onProject (change : Project → Project × Option PyError)
    (hstatus : ∀ p, m.projects.get? projectId = some p → p.status = .archived → (change p).1.status = .archived)
    (herror : ∀ p e, m.projects.get? projectId = some p → (change p).2 = some e → (change p).1 = p)
    (h : m.projectCount ≤ m.maxProjects) : m.Kept (m.onProject projectId change) := by
  refine ⟨le_trans (by exact_mod_cast projectCount_onProject change hstatus) h, fun e he => ?_⟩
  cases hp : m.projects.get? projectId with
  | none => exact onProject_missing change hp
  | some p =>
    rw [onProject, hp] at he
    rw [onProject_projects change hp]
    cases herr : (change p).2 with
    | none => simp [herr] at he
    | some e' => rw [herror p e' hp herr, Dict.set_of_get? hp]

theorem kept_createProject (projectId : String) (name description : Value) (agents : List String)
    (priority metadata : Value) (now : Nat) (h : m.projectCount ≤ m.maxProjects) :
    m.Kept (m.createProject text projectId name description agents priority metadata now) := by
  unfold createProject
  split
  · exact ⟨h, fun _ _ => rfl⟩
  · next hroom =>
    split
    · exact ⟨h, fun _ _ => rfl⟩
    · refine ⟨?_, fun e he => by cases he⟩
      have hcount := projectCount_set m projectId
        { projectId, name, description, status := .active, assignedAgents := agents, priority, createdAt := now,
          updatedAt := now, metadata := if metadata.truthy then metadata else .dict [] }
      dsimp only at hcount ⊢
      have hone : (if ProjectStatus.active ≠ .archived then 1 else 0) = 1 := rfl
      omega

theorem kept_updateProject_iff (kwargs : Kwargs) (now : Nat) (h : m.projectCount ≤ m.maxProjects) :
    m.Kept (m.updateProject text projectId kwargs now) ↔ m.MeetsUpdate text projectId kwargs := by
  have hnodup : ((ProjectField.accepted text kwargs.items).map ProjectField.key).Nodup :=
    (ProjectField.keys_accepted kwargs.items).nodup kwargs.nodup
  unfold updateProject
  cases hp : m.projects.get? projectId with
  | none =>
    refine iff_of_true (kept_onProject _ ?_ ?_ h) fun p hsome => ?_
    · intro p hsome
      simp [hp] at hsome
    · intro p e hsome
      simp [hp] at hsome
    · simp [hp] at hsome
  | some p =>
    let fields := ProjectField.accepted text kwargs.items
    have hmeets : m.MeetsUpdate text projectId kwargs ↔
        (ProjectField.refusal? text kwargs.items ≠ none → ∀ field ∈ fields, p.Holds field) ∧
          (p.status = .archived → (∃ s, .status s ∈ fields ∧ s ≠ .archived) → m.projectCount < m.maxProjects) := by
      simp [MeetsUpdate, hp, fields]
    rw [hmeets, Kept, and_comm, onProject_projects _ hp]
    have hset (q : Project) : ({ m with projects := m.projects.set projectId q } : ProjectManager) = m ↔ q = p := by
      constructor
      · intro heq
        have hget : (m.projects.set projectId q).get? projectId = m.projects.get? projectId :=
          congrArg (fun m : ProjectManager => m.projects.get? projectId) heq
        rw [Dict.get?_set_self, hp] at hget
        exact Option.some.inj hget
      · rintro rfl
        rw [Dict.set_of_get? hp]
    have hunchanged := Project.foldl_eq_self_iff (p := p) hnodup
    have hsetFields := @Project.setFields_eq text p kwargs.items
    refine and_congr ?_ ?_
    · cases hr : ProjectField.refusal? text kwargs.items with
      | none => simp [onProject, hp, hsetFields, hr]
      | some e =>
        rw [hr] at hsetFields
        simp only [onProject, hp, hsetFields, hset, hunchanged]
        simp [fields]
    · have hcount (q : Project) (hq : q.status = (fields.foldl Project.setattr p).status) :
          projectCount { m with projects := m.projects.set projectId q } ≤ m.maxProjects ↔
            (p.status = .archived → (∃ s, .status s ∈ fields ∧ s ≠ .archived) → m.projectCount < m.maxProjects) := by
        have hcount := projectCount_set m projectId q
        simp only [hp, Option.any_some, decide_eq_true_eq] at hcount
        by_cases hs : p.status = .archived
        · rw [← Project.foldl_status_iff hs hnodup, ← hq]
          rw [if_neg (by simpa using hs)] at hcount
          by_cases hne : q.status ≠ .archived
          · rw [if_pos hne] at hcount
            simp only [hs, hne, forall_const, ne_eq, not_false_eq_true]
            omega
          · rw [if_neg hne] at hcount
            exact iff_of_true (by omega) fun _ hq => absurd hq hne
        · rw [if_pos hs] at hcount
          refine iff_of_true ?_ fun hs' => absurd hs' hs
          split at hcount <;> omega
      cases hr : ProjectField.refusal? text kwargs.items with
      | none =>
        rw [hsetFields, hr]
        exact hcount _ rfl
      | some e =>
        rw [hsetFields, hr]
        exact hcount _ rfl

theorem kept_perform_iff (op : ProjectOp) (h : m.projectCount ≤ m.maxProjects) :
    m.Kept (m.perform text op) ↔ m.Meets text op := by
  cases op with
  | create projectId name description agents priority metadata now =>
    exact iff_of_true (kept_createProject projectId name description agents priority metadata now h) trivial
  | update projectId kwargs now => exact kept_updateProject_iff kwargs now h
  | archive projectId now =>
    have haccepted : ProjectField.accepted text Kwargs.archived.items = [.status .archived] := rfl
    have hrefusal : ProjectField.refusal? text Kwargs.archived.items = none := rfl
    refine iff_of_true ((kept_updateProject_iff _ now h).mpr fun p _ => ⟨fun he => absurd hrefusal he, ?_⟩) trivial
    rintro - ⟨s, hs, hne⟩
    rw [haccepted, List.mem_singleton] at hs
    cases hs
    exact absurd rfl hne
  | assignAgent projectId agentId now =>
    refine iff_of_true ?_ trivial
    unfold perform assignAgent
    refine kept_onProject _ (fun p _ hs => ?_) (fun p e _ he => ?_) h
    · split <;> exact hs
    · split at he <;> cases he
  | removeAgent projectId agentId now =>
    refine iff_of_true ?_ trivial
    unfold perform removeAgent
    refine kept_onProject _ (fun p _ hs => ?_) (fun p e _ he => ?_) h
    · split <;> exact hs
    · split at he
      · cases he
      · next hnot => rw [if_neg hnot]

@[simp] theorem step_maxProjects (op : ProjectOp) : (m.step text op).maxProjects = m.maxProjects := by
  cases op with
  | create => simp only [step, perform, createProject]; split <;> [rfl; split <;> rfl]
  | _ => exact onProject_maxProjects _

/-- The limit is kept all along a run, and what raises changes nothing, just when the limit is not
negative and every update of the run meets its condition. -/
theorem capacity_kept_iff (text : Value → String) (maxProjects : Int) (ops : List ProjectOp) :
    ((∀ before, before <+: ops → (Lib.run (step text) (new maxProjects) before).projectCount ≤ maxProjects) ∧
      ∀ before op after, ops = before ++ op :: after → ∀ e,
        ((Lib.run (step text) (new maxProjects) before).perform text op).2 = .error e →
          (Lib.run (step text) (new maxProjects) before).step text op = Lib.run (step text) (new maxProjects) before) ↔
      0 ≤ maxProjects ∧ Lib.Admitted (step text) (Meets text) (new maxProjects) ops := by
  have hmax (before : List ProjectOp) : (Lib.run (step text) (new maxProjects) before).maxProjects = maxProjects :=
    Lib.run_invariant (fun m : ProjectManager => m.maxProjects = maxProjects)
      (fun m op hm => (step_maxProjects op).trans hm) rfl before
  constructor
  · rintro ⟨hcount, hsame⟩
    refine ⟨hcount [] List.nil_prefix, Lib.admitted_iff_forall.mpr fun before op after hops => ?_⟩
    have hbefore := hcount before ⟨op :: after, hops.symm⟩
    have hafter := hcount (before ++ [op]) ⟨after, by simp [hops]⟩
    rw [Lib.run_append] at hafter
    refine (kept_perform_iff op (by rwa [hmax])).mp ⟨?_, hsame before op after hops⟩
    rwa [hmax]
  · rintro ⟨hpos, hall⟩
    have hkeep (m : ProjectManager) (op : ProjectOp) (hm : m.projectCount ≤ m.maxProjects) (hop : m.Meets text op) :
        (m.step text op).projectCount ≤ (m.step text op).maxProjects := by
      rw [step_maxProjects]
      exact ((kept_perform_iff op hm).mpr hop).1
    have hinv {before : List ProjectOp} (h : Lib.Admitted (step text) (Meets text) (new maxProjects) before) :=
      h.invariant (fun m => (m.projectCount : Int) ≤ m.maxProjects) hpos hkeep
    refine ⟨fun before hbefore => ?_, fun before op after hops => ?_⟩
    · obtain ⟨after, rfl⟩ := hbefore
      have hcount := hinv (Lib.admitted_append.mp hall).1
      rwa [hmax] at hcount
    · subst hops
      obtain ⟨hbefore, hop, -⟩ := Lib.admitted_append.mp hall
      exact ((kept_perform_iff op (hinv hbefore)).mpr hop).2

/-- A project that leaves the archive is counted without a look at the limit, and an update that
is refused has set the fields before the refused one. -/
theorem limit_exceeded_and_update_torn :
    let text : Value → String := fun _ => ""
    let create (projectId : String) : ProjectOp := .create projectId (.str projectId) (.str "") [] (.int 5) .none 0
    let reactivate : Kwargs := ⟨[("status", .str "active")], by simp, by simp⟩
    let rename : Kwargs := ⟨[("name", .str "b"), ("priority", .int 99)], by simp, by simp⟩
    (Lib.run (step text) (new 1) [create "p", .archive "p" 1, create "q", .update "p" reactivate 2]).projectCount = 2 ∧
      ((Lib.run (step text) (new 1) [create "p"]).perform text (.update "p" rename 1)).2 =
        .error (.valueError "Priority must be 1-10, got ") ∧
      Lib.run (step text) (new 1) [create "p", .update "p" rename 1] ≠ Lib.run (step text) (new 1) [create "p"] := by
  refine ⟨by decide, rfl, fun h => ?_⟩
  have hname : some (Value.str "b") = some (.str "p") :=
    congrArg (fun m : ProjectManager => (m.projects.get? "p").map Project.name) h
  simp at hname

end ProjectManager

end Occp.Orchestrator
