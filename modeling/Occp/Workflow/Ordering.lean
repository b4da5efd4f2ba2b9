import Occp.Lib.Chains
import Occp.Workflow.Definition

/-!
# The graph of a definition

What the waves of an accepted definition say about its dependencies, which definitions
`validate` reports as cyclic, and what it leaves of the edges.
-/

namespace Occp.Workflow.WorkflowDefinition

open Lib (LongestChain Layered Tight)

/-- A node with id `x` names `y` in its `depends_on`. -/
def DependsOn (d : WorkflowDefinition) (x y : String) : Prop :=
  ∃ n ∈ d.nodes, n.nodeId = x ∧ y ∈ n.dependsOn

variable {d : WorkflowDefinition}

theorem mem_adj_iff (hnodup : (d.nodes.map (·.nodeId)).Nodup) (x y : String) : y ∈ d.adj x ↔ d.DependsOn x y := by
  unfold adj
  constructor
  · intro hy
    split at hy
    · next n hn =>
      obtain ⟨hmem, hid⟩ := nodeMap_get x n hn
      exact ⟨n, hmem, hid, hy⟩
    · simp at hy
  · rintro ⟨n, hn, rfl, hy⟩
    have hid : n.nodeId ∈ d.nodeIds := List.mem_dedup.mpr (List.mem_map_of_mem hn)
    obtain ⟨m, hm⟩ := nodeMap_isSome n.nodeId hid
    obtain ⟨hmem, heq⟩ := nodeMap_get n.nodeId m hm
    obtain rfl := List.inj_on_of_nodup_map hnodup hmem hn heq
    rw [hm]
    exact hy

theorem adj_eq_dependsOn (hnodup : (d.nodes.map (·.nodeId)).Nodup) :
    (fun x y => y ∈ d.adj x) = d.DependsOn := by
  funext x y
  exact propext (mem_adj_iff hnodup x y)

/-! ## The waves are as early as the dependencies allow -/

theorem kahn_cons {adj : String → List String} {rounds : Nat} {remaining wave : List String}
    {waves : List (List String)} (h : kahn adj rounds remaining = .ok (wave :: waves)) :
    ∃ rounds', (∀ x, x ∈ wave ↔ x ∈ remaining ∧ ∀ y ∈ adj x, y ∉ remaining) ∧
      kahn adj rounds' (remaining.filter (· ∉ wave)) = .ok waves := by
  unfold kahn at h
  split at h
  · simp at h
  · simp at h
  · next _ rounds _ =>
    dsimp only at h
    split at h
    · simp at h
    · cases hk : kahn adj rounds (remaining.filter
          (· ∉ remaining.filter fun nodeId => (adj nodeId).all (· ∉ remaining))) with
      | error e =>
        rw [hk] at h
        simp [Except.map] at h
      | ok rest =>
        rw [hk] at h
        obtain ⟨rfl, rfl⟩ : _ = wave ∧ rest = waves := by simpa [Except.map] using h
        refine ⟨rounds, fun x => by simp [List.mem_insertionSort], ?_⟩
        rw [← hk]
        congr 1
        exact List.filter_congr fun x _ => by simp [List.mem_insertionSort]

/-- What is left over for the next wave waits for the wave that was just taken. -/
theorem kahn_tight {adj : String → List String} (waves : List (List String)) (rounds : Nat)
    (remaining : List String) (h : kahn adj rounds remaining = .ok waves) : Tight adj waves := by
  induction waves generalizing rounds remaining with
  | nil => exact List.isChain_nil
  | cons wave waves ih =>
    obtain ⟨rounds', hwave, hrest⟩ := kahn_cons h
    cases waves with
    | nil => exact List.isChain_singleton _
    | cons next waves =>
      refine List.isChain_cons_cons.mpr ⟨fun x hx => ?_, ih rounds' _ hrest⟩
      obtain ⟨_, hnext, -⟩ := kahn_cons hrest
      obtain ⟨hrem, hready⟩ := (hnext x).mp hx
      rw [List.mem_filter, decide_eq_true_eq] at hrem
      -- It was not ready before, so something it depends on was still there.
      obtain ⟨y, hy, hyrem⟩ : ∃ y ∈ adj x, y ∈ remaining := by
        by_contra hnone
        simp only [not_exists, not_and] at hnone
        exact hrem.2 ((hwave x).mpr ⟨hrem.1, hnone⟩)
      refine ⟨y, hy, ?_⟩
      by_contra hnot
      exact hready y hy (List.mem_filter.mpr ⟨hyrem, by simpa using hnot⟩)

theorem topologicalSort_tight (h : d.validate = []) {waves : List (List String)}
    (hwaves : d.topologicalSort = .ok waves) : Tight d.adj waves := by
  rw [topologicalSort, h] at hwaves
  cases hk : kahn d.adj d.nodeIds.length d.nodeIds with
  | error e =>
    rw [hk] at hwaves
    simp [Except.mapError] at hwaves
  | ok found =>
    rw [hk] at hwaves
    obtain rfl : found = waves := by simpa [Except.mapError] using hwaves
    exact kahn_tight found _ _ hk

theorem longestChain_wave (h : d.validate = []) {waves : List (List String)}
    (hwaves : d.topologicalSort = .ok waves) {i : Nat} {wave : List String} (hi : waves[i]? = some wave)
    {x : String} (hx : x ∈ wave) : LongestChain d.DependsOn x i := by
  obtain ⟨found, hfound, hlayered, -, -⟩ := topologicalSort_waves h
  obtain rfl : found = waves := by simpa [hfound] using hwaves
  rw [← adj_eq_dependsOn (sound_of_validate h).nodup]
  exact hlayered.longestChain (topologicalSort_tight h hwaves) i wave hi x hx

/-- The sort of an accepted definition ends in waves that hold every node once; a node comes
after all it depends on, in the wave that is as far up as its longest chain of dependencies. -/
theorem topologicalSort_longest_chain (h : d.validate = []) :
    ∃ waves, d.topologicalSort = .ok waves ∧ waves.flatten.Perm (d.nodes.map (·.nodeId)) ∧
      (∀ wave ∈ waves, wave ≠ []) ∧ ∀ i wave, waves[i]? = some wave → ∀ x ∈ wave,
        (∀ y, d.DependsOn x y → ∃ j earlier, j < i ∧ waves[j]? = some earlier ∧ y ∈ earlier) ∧
          LongestChain d.DependsOn x i := by
  have hnodup := (sound_of_validate h).nodup
  obtain ⟨waves, hwaves, hlayered, hperm, hne⟩ := topologicalSort_waves h
  rw [nodeIds, hnodup.dedup] at hperm
  refine ⟨waves, hwaves, hperm, hne, fun i wave hi x hx => ⟨fun y hy => ?_, longestChain_wave h hwaves hi hx⟩⟩
  exact hlayered.earlier hi hx ((mem_adj_iff hnodup x y).mpr hy)

theorem topologicalSort_longest_chain_steps :
    let d : WorkflowDefinition :=
      { workflowId := "steps",
        nodes := [{ nodeId := "ship", agentType := "worker", dependsOn := ["plan", "build"] },
          { nodeId := "build", agentType := "worker", dependsOn := ["plan"] },
          { nodeId := "plan", agentType := "worker" }] }
    d.topologicalSort = .ok [["plan"], ["build"], ["ship"]] ∧ LongestChain d.DependsOn "ship" 2 := by
  intro d
  have hvalid : d.validate = [] := by decide
  have hsort : d.topologicalSort = .ok [["plan"], ["build"], ["ship"]] := by decide
  obtain ⟨waves, hwaves, -, -, hall⟩ := topologicalSort_longest_chain hvalid
  rw [hsort, Except.ok.injEq] at hwaves
  subst hwaves
  exact ⟨hsort, (hall 2 ["ship"] rfl "ship" (by simp)).2⟩

/-! ## A cycle that is found is one of the graph -/

section Search

variable {adj : String → List String} {path : List String}

theorem foldlM_error {visit : Search → String → Except (List String) Search}
    (hvisit : ∀ s x order, Left adj path s order → Searched adj path order (x ∈ ·) (visit s x))
    (items : List String) (s : Search) (order : List String) (hleft : Left adj path s order) (cycle : List String)
    (h : items.foldlM visit s = .error cycle) :
    ∃ x ∈ items, ∃ t q, Left adj path t q ∧ visit t x = .error cycle := by
  induction items generalizing s order with
  | nil => simp [List.foldlM_nil, pure, Except.pure] at h
  | cons x items ih =>
    have hx := hvisit s x order hleft
    rw [List.foldlM_cons] at h
    cases ht : visit s x with
    | error found =>
      rw [ht] at h
      obtain rfl : found = cycle := by simpa [bind, Except.bind] using h
      exact ⟨x, List.mem_cons_self, s, order, hleft, ht⟩
    | ok t =>
      rw [ht] at hx h
      obtain ⟨p, hp, -, -⟩ := hx
      obtain ⟨y, hy, hfound⟩ := ih t p hp h
      exact ⟨y, List.mem_cons_of_mem _ hy, hfound⟩

/-- The path is a chain of dependencies without repetition, so the search never runs out of
depth, and a gray dependency closes the chain. -/
theorem dfs_error {ids : List String} (hknown : ∀ x ∈ ids, adj x ⊆ ids) (depth : Nat) (node : String) (s : Search)
    (order : List String) (hwhite : s.color node = .white) (hleft : Left adj path s order)
    (hchain : (path ++ [node]).IsChain fun x y => y ∈ adj x) (hids : path ++ [node] ⊆ ids)
    (hnodup : path.Nodup) (hdepth : ids.length < depth + path.length) (cycle : List String)
    (h : dfs adj depth node s = .error cycle) : ∃ x, Relation.TransGen (fun x y => y ∈ adj x) x x := by
  induction depth generalizing node path s order with
  | zero =>
    have hle := hnodup.length_le_of_subset (List.Subset.trans (List.subset_append_left _ _) hids)
    omega
  | succ depth ih =>
    have hnode : node ∉ path := by
      intro hmem
      simp [(hleft.gray_iff node).mpr hmem] at hwhite
    have hentered := hleft.enter hwhite
    rw [dfs] at h
    generalize hloop : (List.foldlM _ _ _ : Except (List String) Search) = loop at h
    cases loop with
    | ok t => simp [bind, Except.bind, pure, Except.pure] at h
    | error found =>
      obtain rfl : found = cycle := by simpa [bind, Except.bind] using h
      obtain ⟨dep, hdep, t, q, ht, hfound⟩ := foldlM_error
        (fun u dep q hu => visit_searched (fun hc => dfs_searched depth dep u q (.inr (by simp)) hc hu) hu)
        (adj node) _ order hentered found hloop
      have hlonger : (path ++ [node] ++ [dep]).IsChain fun x y => y ∈ adj x := by
        refine List.isChain_append.mpr ⟨hchain, List.isChain_singleton _, ?_⟩
        simpa using hdep
      split at hfound
      · next hgray => exact ⟨dep, Lib.transGen_of_isChain hlonger ((ht.gray_iff dep).mp hgray)⟩
      · next hwhite =>
        have hin : node ∈ ids := hids (by simp)
        refine ih dep t q hwhite ht hlonger ?_ ?_ ?_ hfound
        · exact List.append_subset.mpr ⟨hids, by simpa using hknown node hin hdep⟩
        · simpa [List.nodup_append, hnodup] using fun a ha heq => hnode (by rwa [heq] at ha)
        · rw [List.length_append, List.length_singleton]
          omega
      · simp at hfound

end Search

theorem mem_nodeIds {x : String} : x ∈ d.nodeIds ↔ x ∈ d.nodes.map (·.nodeId) := List.mem_dedup

/-- With ids that differ and dependencies that are nodes, the search finds a cycle if there is one. -/
theorem detectCycle_ne_nil_iff (hnodup : (d.nodes.map (·.nodeId)).Nodup)
    (hknown : ∀ x y, d.DependsOn x y → y ∈ d.nodes.map (·.nodeId)) :
    d.detectCycle ≠ [] ↔ ∃ x, Relation.TransGen d.DependsOn x x := by
  rw [← adj_eq_dependsOn hnodup]
  constructor
  · intro hfound
    unfold detectCycle at hfound
    dsimp only at hfound
    split at hfound
    · simp at hfound
    · next cycle hc =>
      obtain ⟨x, hx, t, q, ht, herror⟩ := foldlM_error
        (fun s x order hs => root_searched d.nodeIds.length x s order hs) d.nodeIds _ [] (Left.initial d.adj) cycle hc
      split at herror
      · next hwhite =>
        refine @dfs_error d.adj [] d.nodeIds (fun a _ b hb => ?_) _ x { t with path := [] } q hwhite
          ⟨rfl, ht.gray_iff, ht.black_iff, ht.depsFirst⟩ (by simp) (by simpa using hx) List.nodup_nil ?_ cycle herror
        · exact mem_nodeIds.mpr (hknown a b ((mem_adj_iff hnodup a b).mp hb))
        · simp
      · simp at herror
  · rintro ⟨x, hcycle⟩ hnone
    obtain ⟨order, horder, hall⟩ := order_of_no_cycle d hnone
    obtain ⟨y, hy, -⟩ := Relation.TransGen.head'_iff.mp hcycle
    obtain ⟨n, hn, hid, -⟩ := (mem_adj_iff hnodup x y).mp hy
    refine horder.not_transGen (hall (mem_nodeIds.mpr ?_)) hcycle
    exact hid ▸ List.mem_map_of_mem hn

theorem unknownDependencies_eq_nil (hknown : ∀ x y, d.DependsOn x y → y ∈ d.nodes.map (·.nodeId)) :
    d.unknownDependencies = [] := by
  simp only [unknownDependencies, List.flatMap_eq_nil_iff, List.map_eq_nil_iff, List.filter_eq_nil_iff]
  intro n hn dep hdep
  simpa using mem_nodeIds.mpr (hknown n.nodeId dep ⟨n, hn, rfl, hdep⟩)

theorem unknownEnds_eq_nil_iff :
    d.unknownEnds = [] ↔ ∀ e ∈ d.edges, e.fromNode ∈ d.nodeIds ∧ e.toNode ∈ d.nodeIds := by
  simp [unknownEnds, List.flatMap_eq_nil_iff]

/-- A cycle of `depends_on` is reported exactly if every edge names nodes. -/
theorem cycle_reported_iff (hnodup : (d.nodes.map (·.nodeId)).Nodup)
    (hknown : ∀ x y, d.DependsOn x y → y ∈ d.nodes.map (·.nodeId)) :
    (∃ nodes, .cycle nodes ∈ d.validate) ↔
      (∃ x, Relation.TransGen d.DependsOn x x) ∧
        ∀ e ∈ d.edges, e.fromNode ∈ d.nodes.map (·.nodeId) ∧ e.toNode ∈ d.nodes.map (·.nodeId) := by
  have hduplicates : duplicates [] d.nodes = [] := (duplicates_eq_nil_iff _ _).mpr ⟨hnodup, by simp⟩
  have hends := unknownEnds_eq_nil_iff (d := d)
  simp only [mem_nodeIds] at hends
  rw [← detectCycle_ne_nil_iff hnodup hknown, ← hends]
  unfold validate
  rw [hduplicates, unknownDependencies_eq_nil hknown, List.nil_append, List.nil_append]
  by_cases hnodes : d.nodes.isEmpty
  · -- Without nodes the search has nothing to start from.
    have hids : d.nodeIds = [] := by simp [nodeIds, List.isEmpty_iff.mp hnodes]
    have hnone : d.detectCycle = [] := by simp [detectCycle, hids, pure, Except.pure]
    simp [hnodes, hnone]
  · by_cases hissues : d.unknownEnds = []
    · by_cases hcycle : d.detectCycle = [] <;> simp [hnodes, hissues, hcycle]
    · have hcycle (nodes : List String) : .cycle nodes ∉ d.unknownEnds := by
        simp only [unknownEnds, List.mem_flatMap, List.mem_append, not_exists, not_and, not_or]
        intro e he
        constructor <;> split <;> simp
      simp [hnodes, hissues, hcycle]

theorem cycle_reported_iff_two_nodes :
    let d : WorkflowDefinition :=
      { workflowId := "loop",
        nodes := [{ nodeId := "a", agentType := "worker", dependsOn := ["b"] },
          { nodeId := "b", agentType := "worker", dependsOn := ["a"] }],
        edges := [⟨"a", "b"⟩] }
    ∃ nodes, .cycle nodes ∈ d.validate := by
  intro d
  have hab : d.DependsOn "a" "b" := ⟨_, List.mem_cons_self, rfl, List.mem_cons_self⟩
  have hba : d.DependsOn "b" "a" := ⟨_, List.mem_cons_of_mem _ List.mem_cons_self, rfl, List.mem_cons_self⟩
  refine (cycle_reported_iff (d := d) (by decide) ?_).mpr ⟨⟨"a", .tail (.single hab) hba⟩, by decide⟩
  have hknown : ∀ n ∈ d.nodes, ∀ y ∈ n.dependsOn, y ∈ d.nodes.map (·.nodeId) := by decide
  rintro x y ⟨n, hn, -, hy⟩
  exact hknown n hn y hy

/-- An edge that names no node hides a cycle of the dependencies. -/
theorem unknown_edge_hides_cycle :
    let d : WorkflowDefinition :=
      { workflowId := "loop",
        nodes := [{ nodeId := "a", agentType := "worker", dependsOn := ["b"] },
          { nodeId := "b", agentType := "worker", dependsOn := ["a"] }],
        edges := [⟨"a", "c"⟩] }
    (d.nodes.map (·.nodeId)).Nodup ∧ (∀ n ∈ d.nodes, ∀ y ∈ n.dependsOn, y ∈ d.nodes.map (·.nodeId)) ∧
      (∃ x, Relation.TransGen d.DependsOn x x) ∧ d.validate = [.unknownTo "c"] := by
  intro d
  have hab : d.DependsOn "a" "b" := ⟨_, List.mem_cons_self, rfl, List.mem_cons_self⟩
  have hba : d.DependsOn "b" "a" := ⟨_, List.mem_cons_of_mem _ List.mem_cons_self, rfl, List.mem_cons_self⟩
  exact ⟨by decide, by decide, ⟨"a", .tail (.single hab) hba⟩, by decide⟩

/-! ## Edges -/

/-- The two places in which a definition states an order, read as one relation. -/
def Follows (d : WorkflowDefinition) (x y : String) : Prop :=
  d.DependsOn x y ∨ ∃ e ∈ d.edges, e.toNode = x ∧ e.fromNode = y

/-- `x` stands in a strictly earlier wave than `y`. -/
def Earlier (waves : List (List String)) (x y : String) : Prop :=
  ∃ (i j : Nat) (before after : List String),
    i < j ∧ waves[i]? = some before ∧ x ∈ before ∧ waves[j]? = some after ∧ y ∈ after

theorem ends_of_validate (h : d.validate = []) {e : WorkflowEdge} (he : e ∈ d.edges) :
    e.fromNode ∈ d.nodeIds ∧ e.toNode ∈ d.nodeIds := by
  refine unknownEnds_eq_nil_iff.mp ?_ e he
  unfold validate at h
  split at h
  · simp at h
  · dsimp only at h
    split at h
    · next hissues =>
      simp only [List.append_eq_nil_iff] at hissues
      exact hissues.2
    · next hissues => exact absurd h hissues

theorem exists_wave (h : d.validate = []) {waves : List (List String)} (hwaves : d.topologicalSort = .ok waves)
    {x : String} (hx : x ∈ d.nodeIds) : ∃ (i : Nat) (wave : List String), waves[i]? = some wave ∧ x ∈ wave := by
  obtain ⟨found, hfound, -, hperm, -⟩ := topologicalSort_waves h
  obtain rfl : found = waves := by simpa [hfound] using hwaves
  obtain ⟨wave, hmem, hx⟩ := List.mem_flatten.mp (hperm.mem_iff.mpr hx)
  obtain ⟨i, hi⟩ := List.mem_iff_getElem?.mp hmem
  exact ⟨i, wave, hi, hx⟩

/-- Edges that agree with the longest chains of dependencies close no cycle with them. -/
theorem not_transGen_follows (h : d.validate = [])
    (hedges : ∀ e ∈ d.edges, ∃ m n, LongestChain d.DependsOn e.fromNode m ∧ LongestChain d.DependsOn e.toNode n ∧
      m < n) (x : String) : ¬ Relation.TransGen d.Follows x x := by
  refine Lib.not_transGen_of_rank (LongestChain d.DependsOn) (fun x m n hm hn => hm.unique hn) ?_ x
  rintro x y (hdep | ⟨e, he, rfl, rfl⟩)
  · obtain ⟨waves, hwaves, -, -, hall⟩ := topologicalSort_longest_chain h
    obtain ⟨n, hn, hid, hy⟩ := hdep
    obtain ⟨i, wave, hi, hx⟩ := exists_wave h hwaves (x := x) (mem_nodeIds.mpr (hid ▸ List.mem_map_of_mem hn))
    obtain ⟨hbefore, hchain⟩ := hall i wave hi x hx
    obtain ⟨j, earlier, hlt, hj, hy⟩ := hbefore y ⟨n, hn, hid, hy⟩
    exact ⟨i, j, hchain, (hall j earlier hj y hy).2, hlt⟩
  · obtain ⟨m, n, hm, hn, hlt⟩ := hedges e he
    exact ⟨n, m, hn, hm, hlt⟩

/-- The waves of an accepted definition follow its edges exactly if the dependencies alone
already put more below the end of each edge than below its start. -/
theorem edges_constrain_iff (h : d.validate = []) :
    ((∃ waves, d.topologicalSort = .ok waves ∧ ∀ e ∈ d.edges, Earlier waves e.fromNode e.toNode) ∧
        ¬ ∃ x, Relation.TransGen d.Follows x x) ↔
      ∀ e ∈ d.edges, ∃ m n, LongestChain d.DependsOn e.fromNode m ∧ LongestChain d.DependsOn e.toNode n ∧
        m < n := by
  constructor
  · rintro ⟨⟨waves, hwaves, hearlier⟩, -⟩ e he
    obtain ⟨i, j, before, after, hlt, hi, hfrom, hj, hto⟩ := hearlier e he
    exact ⟨i, j, longestChain_wave h hwaves hi hfrom, longestChain_wave h hwaves hj hto, hlt⟩
  · intro hedges
    refine ⟨?_, fun ⟨x, hx⟩ => not_transGen_follows h hedges x hx⟩
    obtain ⟨waves, hwaves, -⟩ := topologicalSort_waves h
    refine ⟨waves, hwaves, fun e he => ?_⟩
    obtain ⟨hfrom, hto⟩ := ends_of_validate h he
    obtain ⟨i, before, hi, hbefore⟩ := exists_wave h hwaves hfrom
    obtain ⟨j, after, hj, hafter⟩ := exists_wave h hwaves hto
    obtain ⟨m, n, hm, hn, hlt⟩ := hedges e he
    obtain rfl := hm.unique (longestChain_wave h hwaves hi hbefore)
    obtain rfl := hn.unique (longestChain_wave h hwaves hj hafter)
    exact ⟨m, n, before, after, hlt, hi, hbefore, hj, hafter⟩

theorem edges_constrain_iff_build_and_test :
    let d : WorkflowDefinition :=
      { workflowId := "steps",
        nodes := [{ nodeId := "build", agentType := "worker" },
          { nodeId := "test", agentType := "worker", dependsOn := ["build"] }],
        edges := [⟨"build", "test"⟩] }
    ∃ waves, d.topologicalSort = .ok waves ∧ ∀ e ∈ d.edges, Earlier waves e.fromNode e.toNode := by
  intro d
  have hvalid : d.validate = [] := by decide
  have hsort : d.topologicalSort = .ok [["build"], ["test"]] := by decide
  refine ((edges_constrain_iff hvalid).mpr fun e he => ?_).1
  rw [List.mem_singleton.mp he]
  exact ⟨0, 1, longestChain_wave hvalid hsort rfl (by simp), longestChain_wave hvalid hsort rfl (by simp), by decide⟩

/-- Nothing but the names in an edge is looked at: these two edges form a cycle, and neither
orders the nodes. -/
theorem edges_ignored :
    let d : WorkflowDefinition :=
      { workflowId := "pair", nodes := [{ nodeId := "a", agentType := "worker" }, { nodeId := "b", agentType := "worker" }],
        edges := [⟨"a", "b"⟩, ⟨"b", "a"⟩] }
    d.validate = [] ∧ d.topologicalSort = .ok [["a", "b"]] ∧ ¬ Earlier [["a", "b"]] "a" "b" ∧
      ∃ x, Relation.TransGen d.Follows x x := by
  intro d
  refine ⟨by decide, rfl, ?_, "a", .tail (.single (.inr ⟨⟨"b", "a"⟩, by simp [d], rfl, rfl⟩))
    (.inr ⟨⟨"a", "b"⟩, by simp [d], rfl, rfl⟩)⟩
  rintro ⟨i, j, before, after, hlt, -, -, hj, -⟩
  have hlen := (List.getElem?_eq_some_iff.mp hj).1
  simp only [List.length_singleton] at hlen
  omega

end Occp.Workflow.WorkflowDefinition
