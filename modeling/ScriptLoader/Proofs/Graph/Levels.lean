import ScriptLoader.Proofs.Graph.Cycles

/-!
The order of a list of nodes, said of their paths. A batch holds the paths whose longest chain of dependencies
has as many steps as there are batches before it, and what fits into no batch has chains of every length,
since it leads to a cycle.
-/

set_option autoImplicit false
namespace ScriptLoader.Graph

open Relation

/-! ## Batches -/

variable {g : Graph} {done left : List Nat} {n m d : Nat}

/-- Where all with shorter chains are done, those are ready whose chains are not longer. -/
theorem isReady_iff_not_hasChain
    (mem_done : ∀ m, m ∈ done ↔ g.isPresent m = true ∧ ¬HasChain g.DependsOn d m) :
    g.isReady done n = true ↔ ¬HasChain g.DependsOn (d + 1) n := by
  rw [isReady_iff]
  constructor
  · rintro all_done ⟨m, depends, chain⟩
    exact ((mem_done m).mp (all_done m depends)).2 chain
  · intro none m depends
    exact (mem_done m).mpr ⟨DependsOn.isPresent depends, fun chain => none ⟨m, depends, chain⟩⟩

theorem mem_layersFrom (g : Graph) (done left : List Nat)
    (mem_done : ∀ m, m ∈ done ↔ g.isPresent m = true ∧ ¬HasChain g.DependsOn d m)
    (mem_left : ∀ m, m ∈ left ↔ g.isPresent m = true ∧ HasChain g.DependsOn d m) (k : Nat) :
    n ∈ (g.layersFrom done left).1.getD k [] ↔ g.isPresent n = true ∧ LongestChain g.DependsOn n (d + k) := by
  induction done, left using layersFrom.induct g generalizing d k with
  | case1 done left stopped =>
    -- A project with a longer chain would lead to one whose chain is just long enough, and this one would be ready.
    have none_exact : ∀ m, g.isPresent m = true → ¬LongestChain g.DependsOn m d := by
      intro m present longest
      obtain ⟨chain, none_longer⟩ := longestChain_iff.mp longest
      have ready : m ∈ g.ready done left :=
        List.mem_filter.mpr ⟨(mem_left m).mpr ⟨present, chain⟩, (isReady_iff_not_hasChain mem_done).mpr none_longer⟩
      simp [stopped] at ready
    have none_longer : ∀ k m, g.isPresent m = true → ¬LongestChain g.DependsOn m (d + k) := by
      intro k
      induction k with
      | zero => exact none_exact
      | succ k ih =>
        intro m _ longest
        obtain ⟨next, depends, shorter⟩ := longest.step
        exact ih next (DependsOn.isPresent depends) shorter
    rw [layersFrom, if_pos stopped]
    simp only [List.getD_nil, List.not_mem_nil, false_iff, not_and]
    exact none_longer k n
  | case2 done left some_ready ih =>
    rw [layersFrom, if_neg some_ready]
    cases k with
    | zero =>
      rw [List.getD_cons_zero, ready, List.mem_filter, mem_left, isReady_iff_not_hasChain mem_done, longestChain_iff,
        and_assoc]
      rfl
    | succ k =>
      rw [List.getD_cons_succ, ← Nat.add_assoc, Nat.add_right_comm]
      apply ih
      · intro m
        simp only [ready, List.mem_append, List.mem_filter, mem_done, mem_left, isReady_iff_not_hasChain mem_done]
        have shorter : HasChain g.DependsOn (d + 1) m → HasChain g.DependsOn d m := HasChain.pred
        tauto
      · intro m
        have shorter : HasChain g.DependsOn (d + 1) m → HasChain g.DependsOn d m := HasChain.pred
        have waits : (!g.isReady done m) = true ↔ HasChain g.DependsOn (d + 1) m := by
          rw [Bool.not_eq_true', Bool.eq_false_iff, ne_eq, isReady_iff_not_hasChain mem_done, not_not]
        simp only [waiting, List.mem_filter, mem_left, waits]
        tauto

/-- A project is in the batch that its longest chain of dependencies tells. -/
theorem mem_batch (k : Nat) :
    n ∈ g.sort.batches.getD k [] ↔ g.isPresent n = true ∧ LongestChain g.DependsOn n k := by
  rw [sort_eq_layers]
  have placed :=
    g.mem_layersFrom (d := 0) (n := n) [] g.present (by simp [HasChain]) (by simp [HasChain, mem_present]) k
  rwa [Nat.zero_add] at placed

/-- Within a batch nothing depends on anything. -/
theorem independent_batch {batch : List Nat} (mem : batch ∈ g.sort.batches) {n m : Nat}
    (mem_n : n ∈ batch) (mem_m : m ∈ batch) :
    ¬TransGen g.DependsOn n m := by
  obtain ⟨k, held⟩ := List.mem_iff_getElem?.mp mem
  have at_place : g.sort.batches.getD k [] = batch := by rw [List.getD_eq_getElem?_getD, held, Option.getD_some]
  rw [← at_place] at mem_n mem_m
  obtain ⟨-, -, longest⟩ := (mem_batch k).mp mem_n
  obtain ⟨-, chain, -⟩ := (mem_batch k).mp mem_m
  exact fun way => Nat.lt_irrefl k (longest (k + 1) (chain.of_transGen way))

theorem increasing_layersFrom (g : Graph) (done left : List Nat) (increasing : left.Pairwise (· < ·)) :
    ∀ layer ∈ (g.layersFrom done left).1, layer.Pairwise (· < ·) := by
  fun_induction layersFrom g done left with
  | case1 => simp
  | case2 done left some_ready rest ih =>
    intro layer mem
    rcases List.mem_cons.mp mem with rfl | later
    · exact increasing.filter _
    · exact ih (increasing.filter _) layer later

theorem increasing_batch (g : Graph) : ∀ batch ∈ g.sort.batches, batch.Pairwise (· < ·) := by
  rw [sort_eq_layers]
  exact g.increasing_layersFrom _ _ g.increasing_present

theorem increasing_stuck (g : Graph) : g.sort.stuck.Pairwise (· < ·) := by
  rw [sort_eq_layers, g.layersFrom_snd]
  exact g.increasing_present.filter _

theorem mem_stuck : n ∈ g.sort.stuck ↔ g.isPresent n = true ∧ ReachesCycle g.DependsOn n := by
  constructor
  · exact fun stuck => ⟨mem_sequence_or_stuck.mp (.inr stuck), reachesCycle_of_mem_stuck stuck⟩
  · rintro ⟨present, cyclic⟩
    exact (mem_sequence_or_stuck.mpr present).resolve_left fun placed => (mem_sequence.mp placed).2 cyclic


/-! ## Nodes and their paths -/

/-- A node is given for the path; the empty path is none. -/
def Present (nodes : List Node) (path : String) : Prop := path ≠ "" ∧ ∃ node ∈ nodes, node.path = path

/-- Of the nodes given for a path the first names another path that is present. -/
def Needs (nodes : List Node) (path other : String) : Prop :=
  Present nodes path ∧ Present nodes other ∧ path ≠ other ∧
    ∃ node, nodes.find? (·.path = path) = some node ∧ other ∈ node.dependencies

section
variable {nodes : List Node} {path other : String} {n m : Nat}

theorem Present.mem_index (present : Present nodes path) : path ∈ index nodes := by
  obtain ⟨some_text, node, mem, same⟩ := present
  exact Graph.mem_index.mpr ⟨some_text, node, mem, .inl same.symm⟩

theorem isPresent_ofNodes :
    (ofNodes nodes).isPresent n = true ↔
      (index nodes)[n]? = some ((ofNodes nodes).path n) ∧ Present nodes ((ofNodes nodes).path n) := by
  constructor
  · intro present
    have numbered := getElem?_of_isPresent present
    refine ⟨numbered, (mem_index.mp (List.mem_of_getElem? numbered)).1, ?_⟩
    rw [isPresent, node?, numbered] at present
    obtain ⟨node, found⟩ := Option.isSome_iff_exists.mp present
    exact ⟨node, List.mem_of_find?_eq_some found, by simpa using List.find?_some found⟩
  · rintro ⟨numbered, -, node, mem, same⟩
    have found : (ofNodes nodes).paths[n]? = some ((ofNodes nodes).path n) := numbered
    rw [isPresent, node?, found, List.find?_isSome]
    exact ⟨node, mem, by simpa using same⟩

theorem Present.exists_number (present : Present nodes path) :
    ∃ n, (ofNodes nodes).isPresent n = true ∧ (ofNodes nodes).path n = path := by
  obtain ⟨n, numbered⟩ := List.mem_iff_getElem?.mp present.mem_index
  have same : (ofNodes nodes).path n = path := path_of_getElem? numbered
  exact ⟨n, isPresent_ofNodes.mpr ⟨by rw [same]; exact numbered, by rwa [same]⟩, same⟩

theorem mem_map_path {numbers : List Nat} {P : Nat → Prop} (Q : String → Prop)
    (mem_numbers : ∀ n, n ∈ numbers ↔ (ofNodes nodes).isPresent n = true ∧ P n)
    (same : ∀ n, (ofNodes nodes).isPresent n = true → (P n ↔ Q ((ofNodes nodes).path n))) :
    path ∈ numbers.map (ofNodes nodes).path ↔ Present nodes path ∧ Q path := by
  rw [List.mem_map]
  constructor
  · rintro ⟨n, mem, rfl⟩
    obtain ⟨present, held⟩ := (mem_numbers n).mp mem
    exact ⟨(isPresent_ofNodes.mp present).2, (same n present).mp held⟩
  · rintro ⟨present, held⟩
    obtain ⟨n, present_n, rfl⟩ := present.exists_number
    exact ⟨n, (mem_numbers n).mpr ⟨present_n, (same n present_n).mpr held⟩, rfl⟩

theorem dependsOn_ofNodes :
    (ofNodes nodes).DependsOn n m ↔ (ofNodes nodes).isPresent n = true ∧
      (ofNodes nodes).isPresent m = true ∧
      Needs nodes ((ofNodes nodes).path n) ((ofNodes nodes).path m) := by
  have nodup : (ofNodes nodes).paths.Nodup := nodup_index nodes
  rw [DependsOn, mem_dependencies, mem_mentioned]
  constructor
  · rintro ⟨⟨differ, node, selected, path, dependency, numbered⟩, present_m⟩
    obtain rfl := path_of_getElem? numbered
    have present_n : (ofNodes nodes).isPresent n = true := by rw [isPresent, selected]; rfl
    rw [node?, getElem?_of_isPresent present_n] at selected
    refine ⟨present_n, present_m, (isPresent_ofNodes.mp present_n).2, (isPresent_ofNodes.mp present_m).2, ?_, node,
      selected, dependency⟩
    exact fun same => differ (eq_of_path_eq present_n numbered same).symm
  · rintro ⟨present_n, present_m, -, -, differ, node, found, dependency⟩
    refine ⟨⟨fun same => differ (by rw [same]), node, ?_, _, dependency, getElem?_of_isPresent present_m⟩, present_m⟩
    rw [node?, getElem?_of_isPresent present_n]
    exact found

theorem needs_back (n : Nat) (path : String) (present : (ofNodes nodes).isPresent n = true)
    (needs : Needs nodes ((ofNodes nodes).path n) path) :
    ∃ m, (ofNodes nodes).isPresent m = true ∧ (ofNodes nodes).DependsOn n m ∧
      (ofNodes nodes).path m = path := by
  obtain ⟨m, present_m, rfl⟩ := needs.2.1.exists_number
  exact ⟨m, present_m, dependsOn_ofNodes.mpr ⟨present, present_m, needs⟩, rfl⟩

theorem reachesCycle_ofNodes (present : (ofNodes nodes).isPresent n = true) :
    ReachesCycle (Needs nodes) ((ofNodes nodes).path n) ↔ ReachesCycle (ofNodes nodes).DependsOn n :=
  reachesCycle_map_iff needs_back present (fun _ _ depends => (dependsOn_ofNodes.mp depends).2.2)
    (fun _ _ held held' => eq_of_path_eq held (getElem?_of_isPresent held'))

theorem longestChain_ofNodes (present : (ofNodes nodes).isPresent n = true) (k : Nat) :
    LongestChain (Needs nodes) ((ofNodes nodes).path n) k ↔ LongestChain (ofNodes nodes).DependsOn n k := by
  have chain : ∀ k, HasChain (Needs nodes) k ((ofNodes nodes).path n) ↔
      HasChain (ofNodes nodes).DependsOn k n := by
    intro k
    constructor
    · refine HasChain.simulate (fun path n => (ofNodes nodes).isPresent n = true ∧
        (ofNodes nodes).path n = path) ?_ ⟨present, rfl⟩
      rintro _ n ⟨present, rfl⟩ path needs
      obtain ⟨m, present_m, depends, same⟩ := needs_back n path present needs
      exact ⟨m, depends, present_m, same⟩
    · refine HasChain.simulate (fun n path => (ofNodes nodes).path n = path) ?_ rfl
      rintro n _ rfl m depends
      exact ⟨_, (dependsOn_ofNodes.mp depends).2.2, rfl⟩
  simp only [LongestChain, chain]

/-- Increasing numbers of present nodes have increasing paths. -/
theorem increasing_map_path {numbers : List Nat} (increasing : numbers.Pairwise (· < ·))
    (present : ∀ n ∈ numbers, (ofNodes nodes).isPresent n = true) :
    (numbers.map (ofNodes nodes).path).Pairwise Text.Utf8.Precedes := by
  rw [List.pairwise_map]
  refine increasing.imp_of_mem ?_
  intro n m mem_n mem_m less
  obtain ⟨inside_n, at_n⟩ := List.getElem?_eq_some_iff.mp (isPresent_ofNodes.mp (present n mem_n)).1
  obtain ⟨inside_m, at_m⟩ := List.getElem?_eq_some_iff.mp (isPresent_ofNodes.mp (present m mem_m)).1
  rw [← at_n, ← at_m]
  exact List.pairwise_iff_getElem.mp (increasing_index nodes) n m inside_n inside_m less

theorem mem_sequence_paths :
    path ∈ (ofNodes nodes).sort.sequence.map (ofNodes nodes).path ↔
      Present nodes path ∧ ¬ReachesCycle (Needs nodes) path :=
  mem_map_path (fun path => ¬ReachesCycle (Needs nodes) path) (fun _ => mem_sequence) fun _ present =>
    not_congr (reachesCycle_ofNodes present).symm

theorem mem_stuck_paths :
    path ∈ (ofNodes nodes).sort.stuck.map (ofNodes nodes).path ↔
      Present nodes path ∧ ReachesCycle (Needs nodes) path :=
  mem_map_path (ReachesCycle (Needs nodes)) (fun _ => mem_stuck) fun _ present => (reachesCycle_ofNodes present).symm

theorem mem_batch_paths (k : Nat) :
    path ∈ ((ofNodes nodes).sort.batches.getD k []).map (ofNodes nodes).path ↔
      Present nodes path ∧ LongestChain (Needs nodes) path k :=
  mem_map_path (fun path => LongestChain (Needs nodes) path k) (fun _ => mem_batch k) fun _ present =>
    (longestChain_ofNodes present k).symm

end

/-- The sort of any list of nodes places each present path that leads to no cycle once and nothing else, in the batch
that its longest chain of dependencies tells, and every batch is in order of the bytes of its paths. -/
theorem sort_places_by_longest_chain (nodes : List Node) :
    let g := ofNodes nodes
    let order := g.sort
    let batch k := (order.batches.getD k []).map g.path
    (order.sequence.map g.path).Nodup ∧
    (∀ path, path ∈ order.sequence.map g.path ↔ Present nodes path ∧ ¬ReachesCycle (Needs nodes) path) ∧
    order.sequence = order.batches.flatten ∧
    (∀ k path, path ∈ batch k ↔ Present nodes path ∧ LongestChain (Needs nodes) path k) ∧
    (∀ k path other, path ∈ batch k → Needs nodes path other → ∃ j < k, other ∈ batch j) ∧
    (∀ k, ∀ path ∈ batch k, ∀ other ∈ batch k, ¬TransGen (Needs nodes) path other) ∧
    ∀ members ∈ order.batches, (members.map g.path).Pairwise Text.Utf8.Precedes := by
  intro g order batch
  have mem_batch : ∀ k path, path ∈ batch k ↔ Present nodes path ∧ LongestChain (Needs nodes) path k :=
    fun k path => mem_batch_paths k
  refine ⟨g.nodup_sequence_paths, fun path => mem_sequence_paths, g.sequence_eq_flatten, mem_batch,
    ?_, ?_, ?_⟩
  · intro k path other mem needs
    obtain ⟨-, -, longest⟩ := (mem_batch k path).mp mem
    have shorter : ¬HasChain (Needs nodes) k other := fun chain =>
      Nat.lt_irrefl k (longest (k + 1) ⟨other, needs, chain⟩)
    obtain ⟨j, less, longest_other⟩ := exists_longestChain shorter
    exact ⟨j, less, (mem_batch j other).mpr ⟨needs.2.1, longest_other⟩⟩
  · intro k path mem other other_mem way
    obtain ⟨-, -, longest⟩ := (mem_batch k path).mp mem
    obtain ⟨-, chain, -⟩ := (mem_batch k other).mp other_mem
    exact Nat.lt_irrefl k (longest (k + 1) (chain.of_transGen way))
  · intro members mem
    refine increasing_map_path (g.increasing_batch members mem) ?_
    intro n held
    have placed : n ∈ order.sequence := by
      rw [g.sequence_eq_flatten]
      exact List.mem_flatten.mpr ⟨members, mem, held⟩
    exact (mem_sequence.mp placed).1

/-- The sort of any list of nodes is cyclic exactly if the needs of the present paths go in a circle. Left over are then
the present paths that lead to a circle, those that are missing from the order, and they are reported. -/
theorem sort_cyclic_iff_needs_go_round (nodes : List Node) :
    let g := ofNodes nodes
    let order := g.sort
    (order.isCyclic = true ↔ ∃ path, TransGen (Needs nodes) path path) ∧
    (∀ path, path ∈ order.stuck.map g.path ↔ Present nodes path ∧ ReachesCycle (Needs nodes) path) ∧
    (∀ path, path ∈ order.stuck.map g.path ↔ Present nodes path ∧ path ∉ order.sequence.map g.path) ∧
    (order.stuck.map g.path).Pairwise Text.Utf8.Precedes ∧
    (order.isCyclic = false → order.stuck = []) ∧
    (g.cycle? order).isSome = order.isCyclic := by
  intro g order
  have cyclic_iff : order.isCyclic = true ↔ order.stuck ≠ [] := g.isCyclic_iff
  have mem_stuck : ∀ path, path ∈ order.stuck.map g.path ↔ Present nodes path ∧ ReachesCycle (Needs nodes) path :=
    fun path => mem_stuck_paths
  refine ⟨?_, mem_stuck, ?_, ?_, ?_, ?_⟩
  · rw [cyclic_iff]
    constructor
    · intro some_stuck
      obtain ⟨n, mem⟩ := List.exists_mem_of_ne_nil _ some_stuck
      obtain ⟨-, path, -, around⟩ := (mem_stuck (g.path n)).mp (List.mem_map_of_mem mem)
      exact ⟨path, around⟩
    · rintro ⟨path, around⟩ none_stuck
      -- A path that needs something is present, and so is each path of a circle.
      obtain ⟨next, needs, -⟩ := TransGen.head'_iff.mp around
      have stuck := (mem_stuck path).mpr ⟨needs.1, path, .refl, around⟩
      simp [none_stuck] at stuck
  · intro path
    rw [mem_stuck, mem_sequence_paths]
    tauto
  · exact increasing_map_path g.increasing_stuck fun n mem => (Graph.mem_stuck.mp mem).1
  · intro acyclic
    by_contra some_stuck
    simp [cyclic_iff.mpr some_stuck] at acyclic
  · rw [Bool.eq_iff_iff, cyclic_iff, cycle?]
    simp [cyclic_iff]

end ScriptLoader.Graph
