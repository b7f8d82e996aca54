import ScriptLoader.Proofs.Graph.Levels
import Mathlib.Data.List.Forall2

/-!
Nodes in another order. The order of a graph comes from the paths of its nodes and from which of them name
which, not from how the nodes and their dependencies happen to be listed.
-/

set_option autoImplicit false
namespace ScriptLoader.Graph

/-! ## Graphs that agree on their numbers -/

variable {g h : Graph}

/-- The layers look at a graph only through what is ready when. -/
theorem layersFrom_congr (same : g.isReady = h.isReady) (done left : List Nat) :
    g.layersFrom done left = h.layersFrom done left := by
  have ready : ∀ done left, g.ready done left = h.ready done left := by
    intro done left
    rw [ready, ready, same]
  have waiting : ∀ done left, g.waiting done left = h.waiting done left := by
    intro done left
    rw [waiting, waiting, same]
  induction done, left using layersFrom.induct g with
  | case1 done left stopped => rw [layersFrom.eq_def g, layersFrom.eq_def h, ← ready, if_pos stopped, if_pos stopped]
  | case2 done left some_ready ih =>
    rw [layersFrom.eq_def g, layersFrom.eq_def h, ← ready, ← waiting, if_neg some_ready, if_neg some_ready, ih]

theorem sort_congr (present : g.present = h.present)
    (dependencies : ∀ n m, m ∈ g.dependencies n ↔ m ∈ h.dependencies n) : g.sort = h.sort := by
  have ready : g.isReady = h.isReady := by
    funext done n
    rw [Bool.eq_iff_iff, isReady_iff, isReady_iff]
    simp only [dependencies]
  rw [sort_eq_layers, sort_eq_layers, present, layersFrom_congr ready]


/-! ## Nodes that are listed differently -/

/-- One node, whose dependencies may stand in another order and be named more than once. -/
def Node.Alike (node other : Node) : Prop :=
  node.path = other.path ∧ ∀ path, path ∈ node.dependencies ↔ path ∈ other.dependencies

theorem Node.Alike.symm {node other : Node} (alike : node.Alike other) : other.Alike node :=
  ⟨alike.1.symm, fun path => (alike.2 path).symm⟩

/-- The same nodes in any order, each with the same dependencies in any order and named any number of times. -/
def Rearranged (nodes others : List Node) : Prop :=
  ∃ renamed, List.Forall₂ Node.Alike nodes renamed ∧ renamed.Perm others

namespace Rearranged
variable {nodes others : List Node}

theorem exists_alike (rearranged : Rearranged nodes others) {node : Node} (mem : node ∈ nodes) :
    ∃ other ∈ others, node.Alike other := by
  obtain ⟨renamed, alike, shuffled⟩ := rearranged
  induction alike generalizing others with
  | nil => cases mem
  | cons first rest ih =>
    rcases List.mem_cons.mp mem with rfl | mem
    · exact ⟨_, shuffled.subset List.mem_cons_self, first⟩
    · obtain ⟨other, held, alike⟩ := ih mem (List.Perm.refl _)
      exact ⟨other, shuffled.subset (List.mem_cons_of_mem _ held), alike⟩

theorem symm (rearranged : Rearranged nodes others) : Rearranged others nodes := by
  obtain ⟨renamed, alike, shuffled⟩ := rearranged
  have back : List.Forall₂ Node.Alike renamed nodes := alike.flip.imp fun _ _ alike => Node.Alike.symm alike
  obtain ⟨before, shuffled_back, alike_back⟩ := List.perm_comp_forall₂ shuffled.symm back
  exact ⟨before, shuffled_back, alike_back⟩

theorem perm_paths (rearranged : Rearranged nodes others) : (nodes.map Node.path).Perm (others.map Node.path) := by
  obtain ⟨renamed, alike, shuffled⟩ := rearranged
  have same : nodes.map Node.path = renamed.map Node.path := by
    clear shuffled
    induction alike with
    | nil => rfl
    | cons first _ ih => rw [List.map_cons, List.map_cons, first.1, ih]
  rw [same]
  exact shuffled.map Node.path

/-- The index holds what is mentioned in order of the paths, so that only what is mentioned counts. -/
theorem index_eq (rearranged : Rearranged nodes others) : index nodes = index others := by
  have mentioned : ∀ {nodes others : List Node}, Rearranged nodes others → ∀ path ∈ index nodes,
      path ∈ index others := by
    intro nodes others rearranged path mem
    obtain ⟨some_text, node, listed, mention⟩ := mem_index.mp mem
    obtain ⟨other, held, same_path, same_dependencies⟩ := rearranged.exists_alike listed
    exact mem_index.mpr ⟨some_text, other, held, mention.imp (same_path ▸ ·) (same_dependencies path).mp⟩
  have same : (index nodes).Perm (index others) := by
    rw [List.perm_ext_iff_of_nodup (nodup_index nodes) (nodup_index others)]
    exact fun path => ⟨mentioned rearranged path, mentioned rearranged.symm path⟩
  exact same.eq_of_pairwise (fun _ _ _ _ before after => absurd (before.trans after) (Text.Utf8.Precedes.irrefl _))
    (increasing_index nodes) (increasing_index others)

end Rearranged

theorem find?_path_eq_some {nodes : List Node} (distinct : (nodes.map Node.path).Nodup) {path : String} {node : Node} :
    nodes.find? (·.path = path) = some node ↔ node ∈ nodes ∧ node.path = path := by
  constructor
  · intro found
    exact ⟨List.mem_of_find?_eq_some found, by simpa using List.find?_some found⟩
  · rintro ⟨mem, rfl⟩
    have some_node : (nodes.find? (·.path = node.path)).isSome = true := List.find?_isSome.mpr ⟨node, mem, by simp⟩
    obtain ⟨other, found⟩ := Option.isSome_iff_exists.mp some_node
    have same : other.path = node.path := by simpa using List.find?_some found
    rw [found, List.inj_on_of_nodup_map distinct (List.mem_of_find?_eq_some found) mem same]

section
variable {nodes others : List Node} (rearranged : Rearranged nodes others) (distinct : (nodes.map Node.path).Nodup)
include rearranged distinct

/-- A number stands for the same node in both graphs. -/
theorem Rearranged.exists_node? {n : Nat} {node : Node} (found : (ofNodes nodes).node? n = some node) :
    ∃ other, (ofNodes others).node? n = some other ∧ node.Alike other := by
  have distinct_others : (others.map Node.path).Nodup := rearranged.perm_paths.nodup_iff.mp distinct
  simp only [node?, ofNodes, numbered] at found ⊢
  rw [← rearranged.index_eq]
  split at found
  next path numbered =>
    obtain ⟨mem, rfl⟩ := (find?_path_eq_some distinct).mp found
    obtain ⟨other, held, alike⟩ := rearranged.exists_alike mem
    exact ⟨other, (find?_path_eq_some distinct_others).mpr ⟨held, alike.1.symm⟩, alike⟩
  next => cases found

theorem Rearranged.isPresent_of_isPresent {n : Nat} (present : (ofNodes nodes).isPresent n = true) :
    (ofNodes others).isPresent n = true := by
  obtain ⟨node, found⟩ := Option.isSome_iff_exists.mp present
  obtain ⟨other, found', -⟩ := rearranged.exists_node? distinct found
  exact Option.isSome_iff_exists.mpr ⟨other, found'⟩

theorem Rearranged.mem_dependencies_of_mem {n m : Nat} (depends : m ∈ (ofNodes nodes).dependencies n) :
    m ∈ (ofNodes others).dependencies n := by
  obtain ⟨mention, present⟩ := mem_dependencies.mp depends
  obtain ⟨differs, node, found, path, named, numbered⟩ := mem_mentioned.mp mention
  obtain ⟨other, found', alike⟩ := rearranged.exists_node? distinct found
  refine mem_dependencies.mpr ⟨?_, rearranged.isPresent_of_isPresent distinct present⟩
  have numbered' : (ofNodes others).paths[m]? = some path := by
    have same : (ofNodes others).paths = (ofNodes nodes).paths := rearranged.index_eq.symm
    rw [same]
    exact numbered
  exact mem_mentioned.mpr ⟨differs, other, found', path, (alike.2 path).mp named, numbered'⟩

end

/-- Nodes with distinct paths have the same numbers and the same order, with its batches and what is left
over, whichever order they and their dependencies are listed in and however often a dependency is named. -/
theorem sort_eq_of_rearranged {nodes others : List Node} (distinct : (nodes.map Node.path).Nodup)
    (rearranged : Rearranged nodes others) :
    index nodes = index others ∧ (ofNodes nodes).sort = (ofNodes others).sort := by
  have back := rearranged.symm
  have distinct_others : (others.map Node.path).Nodup := rearranged.perm_paths.nodup_iff.mp distinct
  refine ⟨rearranged.index_eq, sort_congr ?_ ?_⟩
  · have numbers : (ofNodes nodes).numbers = (ofNodes others).numbers :=
      congrArg (fun paths : List String => List.range paths.length) rearranged.index_eq
    rw [present, present, numbers]
    apply List.filter_congr
    intro n _
    rw [Bool.eq_iff_iff]
    exact ⟨rearranged.isPresent_of_isPresent distinct, back.isPresent_of_isPresent distinct_others⟩
  · intro n m
    exact ⟨rearranged.mem_dependencies_of_mem distinct, back.mem_dependencies_of_mem distinct_others⟩

/-- Two projects that refer to each other, and one that they leave alone, in two orders. -/
theorem sort_circle_rearranged :
    let nodes : List Node := [⟨"a", ["b", "c"]⟩, ⟨"b", ["a"]⟩, ⟨"c", []⟩]
    let others : List Node := [⟨"c", []⟩, ⟨"a", ["c", "b", "c"]⟩, ⟨"b", ["a", "a"]⟩]
    index nodes = index others ∧ (ofNodes nodes).sort = (ofNodes others).sort := by
  intro nodes others
  have renamed : List.Forall₂ Node.Alike nodes [⟨"a", ["c", "b", "c"]⟩, ⟨"b", ["a", "a"]⟩, ⟨"c", []⟩] := by
    refine .cons ⟨rfl, ?_⟩ (.cons ⟨rfl, ?_⟩ (.cons ⟨rfl, fun _ => Iff.rfl⟩ .nil))
    · intro path
      simp only [List.mem_cons, List.not_mem_nil, or_false]
      tauto
    · simp
  have shuffled : List.Perm [⟨"a", ["c", "b", "c"]⟩, ⟨"b", ["a", "a"]⟩, ⟨"c", []⟩] others := by decide
  exact sort_eq_of_rearranged (by decide) ⟨_, renamed, shuffled⟩

end ScriptLoader.Graph
