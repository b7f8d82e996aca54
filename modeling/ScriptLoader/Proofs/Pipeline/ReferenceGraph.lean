import ScriptLoader.Proofs.Graph.Levels
import ScriptLoader.Proofs.Pipeline.Discovery

/-!
The graph of the configurations that a search has found. A present number stands for a configuration that
can be used, an edge for a dependency between two of them, so that the order of the graph is an order of the
configurations and what is left over are those that depend on a cycle.
-/

set_option autoImplicit false
namespace ScriptLoader

open Relation ScriptLoader.Graph

namespace Project
variable {fs : FileSystem} {path other : String}

theorem Refers.parses (refers : Refers fs path other) : Parses fs path := by
  obtain ⟨config, parsed, -⟩ := refers
  exact ⟨config, parsed⟩

/-- On the way to a project that can be used, every step that leads on is a dependency. -/
theorem reflTransGen_dependsOn (reached : ReflTransGen (Refers fs) path other) (parses : Parses fs other) :
    ReflTransGen (DependsOn fs) path other := by
  induction reached using ReflTransGen.head_induction_on with
  | refl => exact .refl
  | @head a b refers rest ih =>
    have parses_b : Parses fs b := by
      rcases rest.cases_head with rfl | ⟨c, next, -⟩
      · exact parses
      · exact next.parses
    by_cases same : a = b
    · exact same ▸ ih
    · exact .head ⟨refers, same, parses_b⟩ ih

theorem transGen_dependsOn (reached : TransGen (Refers fs) path other) (differ : path ≠ other)
    (parses : Parses fs other) : TransGen (DependsOn fs) path other :=
  (reflTransGen_iff_eq_or_transGen.mp (reflTransGen_dependsOn reached.to_reflTransGen parses)).resolve_left
    fun same => differ same.symm

end Project

namespace Pipeline.Found
open Project

def graph (found : Found) : Graph := .ofNodes (found.configs.map nodeOf)

namespace Complete
variable {fs : FileSystem} {root : String} {found : Found} (complete : found.Complete fs root) {n m : Nat}
include complete

theorem ne_empty {path : String} (reached : ReflTransGen (Refers fs) root path) : path ≠ "" := by
  have absolute := fs.isAbs_abs path
  rw [abs_of_reached complete.clean reached] at absolute
  rintro rfl
  simp [Path.isAbs] at absolute

theorem find?_node {path : String} {node : Node} :
    (found.configs.map nodeOf).find? (·.path = path) = some node ↔
      ∃ config, (path, some config) ∈ found ∧ node = nodeOf config := by
  have sound : ∀ node, (found.configs.map nodeOf).find? (·.path = path) = some node →
      ∃ config, (path, some config) ∈ found ∧ node = nodeOf config := by
    intro node result
    obtain ⟨config, mem, rfl⟩ := List.mem_map.mp (List.mem_of_find?_eq_some result)
    have chosen := List.find?_some result
    have same : config.path = path := of_decide_eq_true chosen
    exact ⟨config, same ▸ complete.mem_of_mem_configs complete.clean mem, rfl⟩
  constructor
  · exact sound node
  · rintro ⟨config, mem, rfl⟩
    cases result : (found.configs.map nodeOf).find? (·.path = path) with
    | none =>
      have absent := List.find?_eq_none.mp result (nodeOf config)
        (List.mem_map.mpr ⟨config, mem_configs.mpr ⟨path, mem⟩, rfl⟩)
      simp [nodeOf, complete.path_eq complete.clean mem] at absent
    | some node =>
      obtain ⟨other, other_mem, rfl⟩ := sound node result
      obtain rfl : other = config := Except.ok.inj ((complete.parsed other_mem).symm.trans (complete.parsed mem))
      rfl

theorem node?_eq_some {node : Node} :
    found.graph.node? n = some node ↔ found.graph.paths[n]? = some (found.graph.path n) ∧
      ∃ config, (found.graph.path n, some config) ∈ found ∧ node = nodeOf config := by
  rw [Graph.node?, Graph.path, List.getD_eq_getElem?_getD]
  cases found.graph.paths[n]? with
  | none => simp
  | some path =>
    rw [Option.getD_some]
    exact complete.find?_node.trans (by simp)

theorem isPresent_iff :
    found.graph.isPresent n = true ↔ found.graph.paths[n]? = some (found.graph.path n) ∧
      ReflTransGen (Refers fs) root (found.graph.path n) ∧ Parses fs (found.graph.path n) := by
  rw [Graph.isPresent, Option.isSome_iff_exists]
  constructor
  · rintro ⟨node, selected⟩
    obtain ⟨numbered, config, mem, -⟩ := complete.node?_eq_some.mp selected
    exact ⟨numbered, (complete.mem_iff.mp mem).1, config, (complete.mem_iff.mp mem).2⟩
  · rintro ⟨numbered, reached, config, parsed⟩
    exact ⟨nodeOf config, complete.node?_eq_some.mpr ⟨numbered, config, complete.mem_iff.mpr ⟨reached, parsed⟩, rfl⟩⟩

/-- What a present project mentions are the other paths that it refers to. -/
theorem mem_mentioned_iff :
    m ∈ found.graph.mentioned n ↔ found.graph.isPresent n = true ∧
      found.graph.paths[m]? = some (found.graph.path m) ∧
      found.graph.path n ≠ found.graph.path m ∧ Refers fs (found.graph.path n) (found.graph.path m) := by
  rw [mem_mentioned]
  constructor
  · rintro ⟨differ, node, selected, path, dependency, numbered⟩
    obtain rfl := path_of_getElem? numbered
    obtain ⟨-, config, mem, rfl⟩ := complete.node?_eq_some.mp selected
    have present : found.graph.isPresent n = true := by rw [Graph.isPresent, selected]; rfl
    refine ⟨present, numbered, ?_, config, complete.parsed mem, dependency⟩
    exact fun same => differ (eq_of_path_eq present numbered same).symm
  · rintro ⟨present, numbered, differ, config, parsed, dependency⟩
    obtain ⟨numbered_n, reached, -⟩ := complete.isPresent_iff.mp present
    refine ⟨fun same => differ (same ▸ rfl), nodeOf config, ?_, found.graph.path m, dependency, numbered⟩
    exact complete.node?_eq_some.mpr ⟨numbered_n, config, complete.mem_iff.mpr ⟨reached, parsed⟩, rfl⟩

/-- A configuration and what it refers to have numbers. -/
theorem exists_number {config : Config} (mem : config ∈ found.configs) {path : String}
    (mention : path = config.path ∨ path ∈ (nodeOf config).dependencies) :
    ∃ n : Nat, found.graph.paths[n]? = some path := by
  have held := complete.mem_of_mem_configs complete.clean mem
  have reached : ReflTransGen (Refers fs) root path := by
    rcases mention with rfl | dependency
    · exact (complete.mem_iff.mp held).1
    · exact complete.reached_of_dependency complete.clean mem dependency
  exact List.mem_iff_getElem?.mp
    (mem_index.mpr ⟨complete.ne_empty reached, nodeOf config, List.mem_map.mpr ⟨config, mem, rfl⟩, mention⟩)

theorem exists_present {path : String} (reached : ReflTransGen (Refers fs) root path) (parses : Parses fs path) :
    ∃ n, found.graph.isPresent n = true ∧ found.graph.path n = path := by
  obtain ⟨config, parsed⟩ := parses
  have held := complete.mem_iff.mpr ⟨reached, parsed⟩
  obtain ⟨n, numbered⟩ := complete.exists_number (mem_configs.mpr ⟨path, held⟩)
    (.inl (complete.path_eq complete.clean held).symm)
  obtain rfl := path_of_getElem? numbered
  exact ⟨n, complete.isPresent_iff.mpr ⟨numbered, reached, config, parsed⟩, rfl⟩

theorem dependsOn_iff :
    found.graph.DependsOn n m ↔ found.graph.isPresent n = true ∧ found.graph.isPresent m = true ∧
      Project.DependsOn fs (found.graph.path n) (found.graph.path m) := by
  rw [Graph.DependsOn, mem_dependencies, complete.mem_mentioned_iff]
  constructor
  · rintro ⟨⟨present_n, -, differ, refers⟩, present_m⟩
    exact ⟨present_n, present_m, refers, differ, (complete.isPresent_iff.mp present_m).2.2⟩
  · rintro ⟨present_n, present_m, refers, differ, -⟩
    exact ⟨⟨present_n, getElem?_of_isPresent present_m, differ, refers⟩, present_m⟩

/-- Every dependency of a present project is an edge. -/
theorem dependsOn_back (path : String) (present : found.graph.isPresent n = true)
    (depends : Project.DependsOn fs (found.graph.path n) path) :
    ∃ m, found.graph.isPresent m = true ∧ found.graph.DependsOn n m ∧ found.graph.path m = path := by
  have reached := (complete.isPresent_iff.mp present).2.1.tail depends.1
  obtain ⟨m, present_m, rfl⟩ := complete.exists_present reached depends.2.2
  exact ⟨m, present_m, complete.dependsOn_iff.mpr ⟨present, present_m, depends⟩, rfl⟩

theorem reachesCycle_iff (present : found.graph.isPresent n = true) :
    ReachesCycle (Project.DependsOn fs) (found.graph.path n) ↔ ReachesCycle found.graph.DependsOn n :=
  reachesCycle_map_iff (fun _ path held => complete.dependsOn_back path held) present
    (fun _ _ depends => (complete.dependsOn_iff.mp depends).2.2)
    (fun _ _ held held' => eq_of_path_eq held (getElem?_of_isPresent held'))

/-- In the order are the configurations that depend on no cycle. -/
theorem mem_sequence_iff {path : String} :
    path ∈ found.graph.sort.sequence.map found.graph.path ↔
      ReflTransGen (Refers fs) root path ∧ Parses fs path ∧ ¬ReachesCycle (Project.DependsOn fs) path := by
  simp only [List.mem_map, mem_sequence]
  constructor
  · rintro ⟨n, ⟨present, acyclic⟩, rfl⟩
    obtain ⟨-, reached, parses⟩ := complete.isPresent_iff.mp present
    exact ⟨reached, parses, fun cyclic => acyclic ((complete.reachesCycle_iff present).mp cyclic)⟩
  · rintro ⟨reached, parses, acyclic⟩
    obtain ⟨n, present, rfl⟩ := complete.exists_present reached parses
    exact ⟨n, ⟨present, fun cyclic => acyclic ((complete.reachesCycle_iff present).mpr cyclic)⟩, rfl⟩

/-- Of two projects in the order, the first does not refer to the second where the graph does not lead from
one to the other. -/
theorem not_refers (mem_n : n ∈ found.graph.sort.sequence) (mem_m : m ∈ found.graph.sort.sequence) (differ : n ≠ m)
    (independent : ¬TransGen found.graph.DependsOn n m) :
    ¬TransGen (Refers fs) (found.graph.path n) (found.graph.path m) := by
  intro reached
  have present_n := (mem_sequence.mp mem_n).1
  have present_m := (mem_sequence.mp mem_m).1
  have paths_differ : found.graph.path n ≠ found.graph.path m := fun same =>
    differ (eq_of_path_eq present_n (getElem?_of_isPresent present_m) same)
  have depends := transGen_dependsOn reached paths_differ (complete.isPresent_iff.mp present_m).2.2
  obtain ⟨k, present_k, way, same⟩ :=
    transGen_of_map (fun _ path held => complete.dependsOn_back path held) present_n depends
  obtain rfl := eq_of_path_eq present_k (getElem?_of_isPresent present_m) same
  exact independent way

/-- No configuration in the order refers, through any number of others, to one that comes later. -/
theorem pairwise_sequence_paths :
    (found.graph.sort.sequence.map found.graph.path).Pairwise fun earlier later =>
      ¬TransGen (Refers fs) earlier later := by
  rw [List.pairwise_map]
  refine (found.graph.pairwise_sequence.and found.graph.nodup_sequence).imp_of_mem ?_
  rintro n m mem_n mem_m ⟨independent, differ⟩
  exact complete.not_refers mem_n mem_m differ independent

/-- Of two configurations of a batch neither refers to the other. -/
theorem pairwise_batch_paths {batch : List Nat} (mem : batch ∈ found.graph.sort.batches) :
    (batch.map found.graph.path).Pairwise fun path other =>
      ¬TransGen (Refers fs) path other ∧ ¬TransGen (Refers fs) other path := by
  have placed : ∀ n ∈ batch, n ∈ found.graph.sort.sequence := by
    intro n held
    rw [sequence_eq_flatten]
    exact List.mem_flatten.mpr ⟨batch, mem, held⟩
  rw [List.pairwise_map]
  refine (found.graph.increasing_batch batch mem).imp_of_mem fun {n m} mem_n mem_m less => ⟨?_, ?_⟩
  · exact complete.not_refers (placed n mem_n) (placed m mem_m) (by omega) (independent_batch mem mem_n mem_m)
  · exact complete.not_refers (placed m mem_m) (placed n mem_n) (by omega) (independent_batch mem mem_m mem_n)

/-- Where the graph lacks nothing, everything that references lead to can be used. -/
theorem parses_of_refers (nothing_reported : found.graph.build.reported = []) {path other : String}
    (reached : ReflTransGen (Refers fs) root path) (refers : Refers fs path other) : Parses fs other := by
  by_cases same : path = other
  · exact same ▸ refers.parses
  · obtain ⟨n, present, rfl⟩ := complete.exists_present reached refers.parses
    obtain ⟨config, parsed, dependency⟩ := refers
    obtain ⟨m, numbered⟩ := complete.exists_number
      (mem_configs.mpr ⟨_, complete.mem_iff.mpr ⟨reached, parsed⟩⟩) (.inr dependency)
    obtain rfl := path_of_getElem? numbered
    have mention : m ∈ found.graph.mentioned n :=
      complete.mem_mentioned_iff.mpr ⟨present, numbered, same, config, parsed, dependency⟩
    exact (complete.isPresent_iff.mp (isPresent_of_reported_eq_nil nothing_reported mention)).2.2

/-- Where nothing is left over, nothing depends on a cycle. -/
theorem not_reachesCycle (no_cycle : found.graph.cycle? found.graph.sort = none) {path : String}
    (reached : ReflTransGen (Refers fs) root path) (parses : Parses fs path) :
    ¬ReachesCycle (Project.DependsOn fs) path := by
  obtain ⟨n, present, rfl⟩ := complete.exists_present reached parses
  have placed : n ∈ found.graph.sort.sequence :=
    (mem_sequence_or_stuck.mpr present).resolve_right (by simp [stuck_eq_nil no_cycle])
  rw [complete.reachesCycle_iff present]
  exact (mem_sequence.mp placed).2

end Complete
end Pipeline.Found
end ScriptLoader
