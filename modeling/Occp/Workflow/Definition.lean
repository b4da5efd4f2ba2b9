import Mathlib.Data.List.Sort
import Mathlib.Data.List.Dedup
import Mathlib.Data.List.TakeWhile
import Mathlib.Logic.Function.Basic
import Occp.Errors
import Occp.Lib.Chains
import Occp.Lib.Except

/-!
# Workflow definitions (`orchestrator/multi_agent.py`)

What `validate` accepts, and the waves that `topological_sort` cuts an accepted
definition into.
-/

namespace Occp.Workflow

open Lib (DepsFirst Layered)

/-! ## The data -/

/-- The keys of a `task_template` that `_execute_node` reads. -/
structure TaskTemplate where
  name : Option String := none
  description : Option String := none
  metadata : Option (Dict Value) := none

structure AgentNode where
  nodeId : String
  agentType : String
  taskTemplate : TaskTemplate := {}
  dependsOn : List String := []
  retryCount : Nat := 0

structure WorkflowEdge where
  fromNode : String
  toNode : String

structure WorkflowDefinition where
  workflowId : String
  nodes : List AgentNode
  edges : List WorkflowEdge := []
  metadata : Dict Value := []

/-- One line of what `validate` returns. -/
inductive Issue where
  | noNodes
  | duplicate (nodeId : String)
  | unknownDependency (nodeId dep : String)
  | unknownFrom (nodeId : String)
  | unknownTo (nodeId : String)
  | cycle (nodes : List String)
  deriving DecidableEq

def Issue.text : Issue → String
  | noNodes => "Workflow has no nodes"
  | duplicate nodeId => s!"Duplicate node_id: {nodeId}"
  | unknownDependency nodeId dep => s!"Node {nodeId} depends on unknown node: {dep}"
  | unknownFrom nodeId => s!"Edge references unknown from_node: {nodeId}"
  | unknownTo nodeId => s!"Edge references unknown to_node: {nodeId}"
  | cycle nodes => "Cycle detected involving nodes: " ++ reprStrings nodes

inductive Color where
  | white
  | gray
  | black
  deriving DecidableEq

/-- What the nested function `dfs` shares between its calls. -/
structure Search where
  color : String → Color
  path : List String

namespace WorkflowDefinition

variable (d : WorkflowDefinition)

/-- `node_ids`. The order in which Python walks the set only decides which cycle is named. -/
def nodeIds : List String := (d.nodes.map (·.nodeId)).dedup

def nodeMap : Dict AgentNode := d.nodes.foldl (fun m n => m.set n.nodeId n) []

/-- `adj.get(node, [])`. -/
def adj (nodeId : String) : List String :=
  match d.nodeMap.get? nodeId with
  | some n => n.dependsOn
  | none => []

/-! ## Validation -/

/-- `dfs`, with the cycle as the error. The path never holds a node twice, so the number of
nodes bounds the depth. -/
def dfs (adj : String → List String) : (depth : Nat) → String → Search → Except (List String) Search
  | 0, _, s => .error s.path
  | depth + 1, node, s => do
    let entered : Search := ⟨Function.update s.color node .gray, s.path ++ [node]⟩
    let left ← (adj node).foldlM (fun s dep =>
      match s.color dep with
      | .gray => .error (s.path.dropWhile (· != dep))
      | .white => dfs adj depth dep s
      | .black => .ok s) entered
    return ⟨Function.update left.color node .black, left.path.dropLast⟩

def detectCycle : List String :=
  let visit (s : Search) (nodeId : String) : Except (List String) Search :=
    if s.color nodeId = .white then dfs d.adj (d.nodeIds.length + 1) nodeId { s with path := [] } else .ok s
  match d.nodeIds.foldlM visit ⟨fun _ => .white, []⟩ with
  | .ok _ => []
  | .error cycle => cycle

def duplicates : (seen : List String) → List AgentNode → List Issue
  | _, [] => []
  | seen, n :: rest =>
    (if n.nodeId ∈ seen then [.duplicate n.nodeId] else []) ++ duplicates (n.nodeId :: seen) rest

def unknownDependencies : List Issue :=
  d.nodes.flatMap fun n =>
    (n.dependsOn.filter (· ∉ d.nodeIds)).map (.unknownDependency n.nodeId ·)

def unknownEnds : List Issue :=
  d.edges.flatMap fun e =>
    (if e.fromNode ∈ d.nodeIds then [] else [.unknownFrom e.fromNode]) ++
      (if e.toNode ∈ d.nodeIds then [] else [.unknownTo e.toNode])

def validate : List Issue :=
  if d.nodes.isEmpty then [.noNodes]
  else
    let issues := duplicates [] d.nodes ++ d.unknownDependencies ++ d.unknownEnds
    if issues = [] then
      if d.detectCycle = [] then [] else [.cycle d.detectCycle]
    else issues

/-! ## Waves -/

/-- The loop of `topological_sort`. Each wave takes something away, so as many rounds as
there are nodes are enough. -/
def kahn (adj : String → List String) : (rounds : Nat) → (remaining : List String) →
    Except (List String) (List (List String))
  | _, [] => .ok []
  | 0, remaining => .error remaining
  | rounds + 1, remaining =>
    let ready := remaining.filter fun nodeId => (adj nodeId).all (· ∉ remaining)
    if ready = [] then .error remaining
    else (kahn adj rounds (remaining.filter (· ∉ ready))).map (ready.insertionSort (· ≤ ·) :: ·)

def cyclicDependency (nodes : List String) : PyError :=
  .workflowValidation d.workflowId [(Issue.cycle nodes).text]

def topologicalSort : Except PyError (List (List String)) :=
  if d.validate.any fun i => isSubstring "Cycle".toList i.text.toList then
    .error (d.cyclicDependency d.detectCycle)
  else
    (kahn d.adj d.nodeIds.length d.nodeIds).mapError d.cyclicDependency

/-! ## The search finds an order, or a cycle -/

section Search

variable {adj : String → List String} {path : List String}

/-- Between two calls of the search: the gray nodes are those of the path, and the black ones
are listed in the order in which it left them. -/
structure Left (adj : String → List String) (path : List String) (s : Search) (order : List String) : Prop where
  path_eq : s.path = path
  gray_iff : ∀ x, s.color x = .gray ↔ x ∈ path
  black_iff : ∀ x, s.color x = .black ↔ x ∈ order
  depsFirst : DepsFirst adj order

/-- The search either names a cycle or adds to the order. -/
def Searched (adj : String → List String) (path order : List String) (added : List String → Prop) :
    Except (List String) Search → Prop
  | .error cycle => cycle ≠ []
  | .ok s => ∃ order', Left adj path s order' ∧ order ⊆ order' ∧ added order'

theorem foldlM_searched {visit : Search → String → Except (List String) Search}
    (hvisit : ∀ s x order, Left adj path s order → Searched adj path order (x ∈ ·) (visit s x))
    (items : List String) (s : Search) (order : List String) (hleft : Left adj path s order) :
    Searched adj path order (items ⊆ ·) (items.foldlM visit s) := by
  induction items generalizing s order with
  | nil => exact ⟨order, hleft, List.Subset.refl _, List.nil_subset _⟩
  | cons x items ih =>
    have hx := hvisit s x order hleft
    rw [List.foldlM_cons]
    cases ht : visit s x with
    | error cycle =>
      rw [ht] at hx
      exact hx
    | ok t =>
      rw [ht] at hx
      obtain ⟨p, hp, hmono, hx⟩ := hx
      have hrest := ih t p hp
      change Searched adj path order _ (items.foldlM visit t)
      cases hu : items.foldlM visit t with
      | error cycle =>
        rw [hu] at hrest
        exact hrest
      | ok u =>
        rw [hu] at hrest
        obtain ⟨q, hq, hmono', hitems⟩ := hrest
        exact ⟨q, hq, List.Subset.trans hmono hmono', List.cons_subset.mpr ⟨hmono' hx, hitems⟩⟩

/-- A node that is entered turns from white to gray. -/
theorem Left.enter {node : String} {s : Search} {order : List String} (h : Left adj path s order)
    (hwhite : s.color node = .white) :
    Left adj (path ++ [node]) ⟨Function.update s.color node .gray, s.path ++ [node]⟩ order := by
  refine ⟨by rw [h.path_eq], fun x => ?_, fun x => ?_, h.depsFirst⟩
  · rw [List.mem_append, ← h.gray_iff x]
    by_cases hx : x = node <;> simp [hx]
  · rw [← h.black_iff x]
    by_cases hx : x = node
    · subst hx
      simp [hwhite]
    · simp [hx]

/-- A node whose dependencies are all black turns black. -/
theorem Left.leave {node : String} {s : Search} {order : List String} (h : Left adj (path ++ [node]) s order)
    (hnode : node ∉ path) (hdeps : adj node ⊆ order) :
    Left adj path ⟨Function.update s.color node .black, s.path.dropLast⟩ (node :: order) := by
  refine ⟨by rw [h.path_eq, List.dropLast_concat], fun x => ?_, fun x => ?_, fun y hy => hdeps hy, h.depsFirst⟩
  · have hx := h.gray_iff x
    by_cases hxn : x = node <;> simp_all
  · have hx := h.black_iff x
    by_cases hxn : x = node <;> simp_all

/-- A dependency that is looked at is on the path, or searched from, or already listed. -/
theorem visit_searched {depth : Nat} {order : List String} {s : Search} {dep : String}
    (hdfs : s.color dep = .white → Searched adj path order (dep ∈ ·) (dfs adj depth dep s))
    (hleft : Left adj path s order) :
    Searched adj path order (dep ∈ ·) (match s.color dep with
      | .gray => .error (s.path.dropWhile (· != dep))
      | .white => dfs adj depth dep s
      | .black => .ok s) := by
  cases hc : s.color dep with
  | gray =>
    -- The path holds the gray node, so the part of it from there on is not empty.
    have hmem := (hleft.gray_iff dep).mp hc
    rw [← hleft.path_eq] at hmem
    intro hnil
    simpa using List.dropWhile_eq_nil_iff.mp hnil dep hmem
  | white => exact hdfs hc
  | black => exact ⟨order, hleft, List.Subset.refl _, (hleft.black_iff dep).mp hc⟩

theorem dfs_searched (depth : Nat) (node : String) (s : Search) (order : List String)
    (hdepth : depth ≠ 0 ∨ path ≠ []) (hwhite : s.color node = .white) (hleft : Left adj path s order) :
    Searched adj path order (node ∈ ·) (dfs adj depth node s) := by
  induction depth generalizing node path s order with
  | zero =>
    have hpath : s.path ≠ [] := by
      rw [hleft.path_eq]
      exact hdepth.resolve_left fun h => h rfl
    exact hpath
  | succ depth ih =>
    have hnode : node ∉ path := by
      intro hmem
      simp [(hleft.gray_iff node).mpr hmem] at hwhite
    have hloop := foldlM_searched
      (fun u dep q hu => visit_searched (fun hc => ih dep u q (.inr (by simp)) hc hu) hu)
      (adj node) _ order (hleft.enter hwhite)
    rw [dfs]
    revert hloop
    generalize (List.foldlM _ _ _ : Except (List String) Search) = loop
    intro hloop
    cases loop with
    | error cycle => exact hloop
    | ok t =>
      obtain ⟨p, hp, hmono, hdeps⟩ := hloop
      exact ⟨node :: p, hp.leave hnode hdeps, fun x hx => List.mem_cons_of_mem _ (hmono hx), List.mem_cons_self⟩

/-- Between two searches from the top no node is gray. -/
theorem root_searched (depth : Nat) (node : String) (s : Search) (order : List String) (hleft : Left adj [] s order) :
    Searched adj [] order (node ∈ ·)
      (if s.color node = .white then dfs adj (depth + 1) node { s with path := [] } else .ok s) := by
  split
  · next hwhite =>
    exact dfs_searched _ node _ order (.inl (by omega)) hwhite
      ⟨rfl, hleft.gray_iff, hleft.black_iff, hleft.depsFirst⟩
  · next hwhite =>
    refine ⟨order, hleft, List.Subset.refl _, (hleft.black_iff node).mp ?_⟩
    have hgray := hleft.gray_iff node
    cases hc : s.color node <;> simp_all

theorem Left.initial (adj : String → List String) : Left adj [] ⟨fun _ => .white, []⟩ [] :=
  ⟨rfl, by simp, by simp, trivial⟩

/-- A search from every node that finds no cycle leaves an order of all of them. -/
theorem order_of_no_cycle (d : WorkflowDefinition) (h : d.detectCycle = []) :
    ∃ order, DepsFirst d.adj order ∧ d.nodeIds ⊆ order := by
  have hloop := foldlM_searched (fun s x order hs => root_searched d.nodeIds.length x s order hs) d.nodeIds _ []
    (Left.initial d.adj)
  unfold detectCycle at h
  dsimp only at h
  split at h
  · next t ht =>
    rw [ht] at hloop
    obtain ⟨order, hleft, -, hall⟩ := hloop
    exact ⟨order, hleft.depsFirst, hall⟩
  · next cycle hc =>
    rw [hc] at hloop
    exact absurd h hloop

end Search

/-! ## The waves of a valid definition -/

variable {d : WorkflowDefinition}

theorem duplicates_eq_nil_iff (seen : List String) (nodes : List AgentNode) :
    duplicates seen nodes = [] ↔ (nodes.map (·.nodeId)).Nodup ∧ ∀ n ∈ nodes, n.nodeId ∉ seen := by
  induction nodes generalizing seen with
  | nil => simp [duplicates]
  | cons n rest ih =>
    simp only [duplicates, List.append_eq_nil_iff, ih, List.map_cons, List.nodup_cons, List.mem_map, List.mem_cons]
    constructor
    · rintro ⟨hn, hnodup, hrest⟩
      refine ⟨⟨?_, hnodup⟩, ?_⟩
      · rintro ⟨m, hm, heq⟩
        exact hrest m hm (.inl heq)
      · rintro m (rfl | hm)
        · intro hmem
          simp [hmem] at hn
        · exact fun hmem => hrest m hm (.inr hmem)
    · rintro ⟨⟨hnot, hnodup⟩, hseen⟩
      refine ⟨if_neg (hseen n (.inl rfl)), hnodup, fun m hm => ?_⟩
      rintro (heq | hmem)
      · exact hnot ⟨m, hm, heq⟩
      · exact hseen m (.inr hm) hmem

theorem get?_foldl_set (nodes : List AgentNode) (m : Dict AgentNode) (id : String) (n : AgentNode)
    (h : (nodes.foldl (fun m n => m.set n.nodeId n) m).get? id = some n) :
    (n ∈ nodes ∧ n.nodeId = id) ∨ m.get? id = some n := by
  induction nodes generalizing m with
  | nil => exact .inr h
  | cons a rest ih =>
    rcases ih (m.set a.nodeId a) h with ⟨hmem, hid⟩ | hm
    · exact .inl ⟨List.mem_cons_of_mem _ hmem, hid⟩
    · rw [Dict.get?_set] at hm
      split at hm
      · next heq =>
        obtain rfl : a = n := by simpa using hm
        exact .inl ⟨List.mem_cons_self, heq.symm⟩
      · exact .inr hm

theorem isSome_get?_foldl_set (nodes : List AgentNode) (m : Dict AgentNode) (id : String)
    (h : id ∈ nodes.map (·.nodeId) ∨ (m.get? id).isSome) :
    ((nodes.foldl (fun m n => m.set n.nodeId n) m).get? id).isSome := by
  induction nodes generalizing m with
  | nil => simpa using h
  | cons a rest ih =>
    refine ih (m.set a.nodeId a) ?_
    rw [Dict.get?_set, List.map_cons, List.mem_cons] at *
    rcases h with (heq | hrest) | hm
    · right
      simp [heq]
    · exact .inl hrest
    · right
      split <;> simp [hm]

theorem nodeMap_get (id : String) (n : AgentNode) (h : d.nodeMap.get? id = some n) : n ∈ d.nodes ∧ n.nodeId = id := by
  rcases get?_foldl_set d.nodes [] id n h with h | h
  · exact h
  · simp at h

theorem nodeMap_isSome (id : String) (h : id ∈ d.nodeIds) : ∃ n, d.nodeMap.get? id = some n := by
  rw [nodeIds, List.mem_dedup] at h
  exact Option.isSome_iff_exists.mp (isSome_get?_foldl_set d.nodes [] id (.inl h))

/-- What an accepted definition has. -/
structure Sound (d : WorkflowDefinition) : Prop where
  nodes_ne_nil : d.nodes ≠ []
  nodup : (d.nodes.map (·.nodeId)).Nodup
  known : ∀ x, ∀ y ∈ d.adj x, y ∈ d.nodeIds
  acyclic : d.detectCycle = []

theorem sound_of_validate (h : d.validate = []) : Sound d := by
  unfold validate at h
  split at h
  · simp at h
  · next hne =>
    dsimp only at h
    split at h
    · next hissues =>
      simp only [List.append_eq_nil_iff] at hissues
      obtain ⟨⟨hdup, hdeps⟩, -⟩ := hissues
      refine ⟨by simpa using hne, ((duplicates_eq_nil_iff _ _).mp hdup).1, fun x y hy => ?_, ?_⟩
      · unfold adj at hy
        split at hy
        · next n hn =>
          obtain ⟨hmem, -⟩ := nodeMap_get x n hn
          simp only [unknownDependencies, List.flatMap_eq_nil_iff, List.map_eq_nil_iff,
            List.filter_eq_nil_iff, decide_not, Bool.not_eq_true, Bool.not_eq_false', decide_eq_true_eq] at hdeps
          exact hdeps n hmem y hy
        · exact absurd hy List.not_mem_nil
      · split at h
        · assumption
        · simp at h
    · next hissues => exact absurd h hissues

/-- The waves hold every node once, none is empty, and each depends on the ones before it. -/
structure Waves (d : WorkflowDefinition) (waves : List (List String)) : Prop where
  layered : Layered d.adj [] waves
  perm : waves.flatten.Perm d.nodeIds
  nonempty : ∀ wave ∈ waves, wave ≠ []

theorem kahn_layered (adj : String → List String) (order : List String) (horder : DepsFirst adj order) (rounds : Nat)
    (remaining done : List String) (hsub : remaining ⊆ order) (hlen : remaining.length ≤ rounds)
    (hknown : ∀ x ∈ remaining, ∀ y ∈ adj x, y ∈ done ∨ y ∈ remaining) :
    ∃ waves, kahn adj rounds remaining = .ok waves ∧ Layered adj done waves ∧ waves.flatten.Perm remaining ∧
      ∀ wave ∈ waves, wave ≠ [] := by
  induction rounds generalizing remaining done with
  | zero =>
    obtain rfl : remaining = [] := List.eq_nil_of_length_eq_zero (by omega)
    exact ⟨[], rfl, trivial, List.Perm.refl _, by simp⟩
  | succ rounds ih =>
    cases hr : remaining with
    | nil => exact ⟨[], rfl, trivial, List.Perm.refl _, by simp⟩
    | cons a rest =>
      rw [← hr]
      have ha : a ∈ remaining := by simp [hr]
      -- The earliest node of the order that remains is ready.
      obtain ⟨x, -, hx, hxdeps⟩ := horder.exists_ready (· ∈ remaining) ⟨a, hsub ha, ha⟩
      let ready := remaining.filter fun nodeId => (adj nodeId).all (· ∉ remaining)
      have hmem (y : String) : y ∈ ready ↔ y ∈ remaining ∧ ∀ z ∈ adj y, z ∉ remaining := by
        simp [ready, List.mem_filter]
      have hready : x ∈ ready := (hmem x).mpr ⟨hx, hxdeps⟩
      have hperm : (ready ++ remaining.filter (· ∉ ready)).Perm remaining := by
        have hsplit := List.filter_append_perm (fun nodeId => (adj nodeId).all (· ∉ remaining)) remaining
        refine (List.Perm.of_eq ?_).trans hsplit
        congr 1
        refine List.filter_congr fun y hy => ?_
        rw [Bool.eq_iff_iff]
        simp [hmem, hy]
      have hlt : (remaining.filter (· ∉ ready)).length < remaining.length := by
        have hlength := hperm.length_eq
        have hpos := List.length_pos_of_mem hready
        rw [List.length_append] at hlength
        omega
      have hsorted := List.perm_insertionSort (· ≤ ·) ready
      obtain ⟨waves, hwaves, hlayered, hflat, hne⟩ := ih (remaining.filter (· ∉ ready))
        (done ++ ready.insertionSort (· ≤ ·)) (fun y hy => hsub (List.mem_of_mem_filter hy)) (by omega)
        (fun y hy z hz => by
          rcases hknown y (List.mem_of_mem_filter hy) z hz with hdone | hrem
          · exact .inl (List.mem_append_left _ hdone)
          · rcases List.mem_append.mp (hperm.mem_iff.mpr hrem) with hz | hz
            · exact .inl (List.mem_append_right _ (hsorted.mem_iff.mpr hz))
            · exact .inr hz)
      refine ⟨ready.insertionSort (· ≤ ·) :: waves, ?_, ⟨fun y hy z hz => ?_, hlayered⟩, ?_, fun wave hwave => ?_⟩
      · have hne : ready ≠ [] := List.ne_nil_of_mem hready
        rw [hr, kahn, ← hr]
        · simp only [ready] at hne hwaves
          rw [if_neg hne, hwaves]
          rfl
        · simp
      · have hy := (hmem y).mp (hsorted.mem_iff.mp hy)
        exact (hknown y hy.1 z hz).resolve_right (hy.2 z hz)
      · rw [List.flatten_cons]
        exact (hsorted.append hflat).trans hperm
      · rcases List.mem_cons.mp hwave with rfl | hwave
        · intro hnil
          have := hsorted.mem_iff.mpr hready
          simp [hnil] at this
        · exact hne wave hwave

/-- A valid definition is sorted, and never mistaken for a cyclic one. -/
theorem topologicalSort_waves (h : d.validate = []) :
    ∃ waves, d.topologicalSort = .ok waves ∧ Waves d waves := by
  have hsound := sound_of_validate h
  obtain ⟨order, horder, hall⟩ := order_of_no_cycle d hsound.acyclic
  obtain ⟨waves, hwaves, hlayered, hperm, hne⟩ := kahn_layered d.adj order horder d.nodeIds.length d.nodeIds []
    hall (Nat.le_refl _) fun x _ y hy => .inr (hsound.known x y hy)
  refine ⟨waves, ?_, hlayered, hperm, hne⟩
  rw [topologicalSort, h, hwaves]
  rfl

theorem Waves.nodup {waves : List (List String)} (h : Waves d waves) : waves.flatten.Nodup :=
  h.perm.nodup_iff.mpr (List.nodup_dedup _)

end WorkflowDefinition

end Occp.Workflow
