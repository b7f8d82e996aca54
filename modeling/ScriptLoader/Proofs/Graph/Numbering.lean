import ScriptLoader.Graph.Basic
import Mathlib.Data.List.Nodup

/-!
Numbers of paths. The index of a list of nodes holds every path that they mention, in increasing order and
once, so that a number stands for one path and a path for at most one number. What a graph says of numbers is
read off the nodes with their paths: which projects are present, and on which others they depend.
-/

set_option autoImplicit false
namespace ScriptLoader.Graph

def firsts : List Nat → List Nat
  | [] => []
  | n :: rest => n :: (firsts rest).filter (· ≠ n)

/-- The node for a number: of several with its path the first. -/
def node? (g : Graph) (n : Nat) : Option Node :=
  match g.paths[n]? with
  | some path => g.nodes.find? (·.path = path)
  | none => none

def isPresent (g : Graph) (n : Nat) : Bool := (g.node? n).isSome

/-- The other numbers that a project mentions, each once, in order of first mention. -/
def mentioned (g : Graph) (n : Nat) : List Nat :=
  match g.node? n with
  | none => []
  | some node => (firsts (node.dependencies.filterMap (number? g.paths))).filter (· ≠ n)

def dependencies (g : Graph) (n : Nat) : List Nat := (g.mentioned n).filter g.isPresent

def dependents (g : Graph) (n : Nat) : List Nat := g.numbers.filter fun m => (g.dependencies m).contains n

def present (g : Graph) : List Nat := g.numbers.filter g.isPresent

theorem increasing_index (nodes : List Node) : (index nodes).Pairwise Text.Utf8.Precedes :=
  Text.Utf8.increasing_inOrder _

/-- Every path that is mentioned has a number, save the empty one. -/
theorem mem_index {nodes : List Node} {path : String} :
    path ∈ index nodes ↔ path ≠ "" ∧ ∃ node ∈ nodes, path = node.path ∨ path ∈ node.dependencies := by
  rw [index, Text.Utf8.mem_inOrder, List.mem_filter, List.mem_flatMap]
  simp only [List.mem_cons, decide_eq_true_eq]
  exact and_comm

theorem number?_eq_some {paths : List String} (nodup : paths.Nodup) {path : String} {n : Nat} :
    number? paths path = some n ↔ paths[n]? = some path := by
  induction paths generalizing n with
  | nil => simp [number?]
  | cons first rest ih =>
    obtain ⟨absent, nodup_rest⟩ := List.nodup_cons.mp nodup
    rw [number?, List.findIdx?_cons]
    by_cases same : first = path
    · subst same
      cases n with
      | zero => simp
      | succ n =>
        simp only [decide_true, if_true, List.getElem?_cons_succ]
        constructor
        · intro impossible
          cases impossible
        · intro found
          exact absurd (List.mem_of_getElem? found) absent
    · cases n with
      | zero => simp [same]
      | succ n =>
        simp only [same, decide_false, List.getElem?_cons_succ, ← ih nodup_rest, number?]
        simp

@[simp] theorem mem_firsts {n : Nat} {numbers : List Nat} : n ∈ firsts numbers ↔ n ∈ numbers := by
  induction numbers with
  | nil => rfl
  | cons first rest ih =>
    simp only [firsts, List.mem_cons, List.mem_filter, ih, decide_eq_true_eq]
    by_cases same : n = first
    · simp [same]
    · simp [same]

theorem nodup_firsts (numbers : List Nat) : (firsts numbers).Nodup := by
  induction numbers with
  | nil => exact List.nodup_nil
  | cons first rest ih =>
    refine List.nodup_cons.mpr ⟨?_, ih.filter _⟩
    simp

variable {g : Graph} {n m : Nat}

theorem lt_length_of_isPresent (present : g.isPresent n = true) : n < g.paths.length := by
  rcases Nat.lt_or_ge n g.paths.length with inside | outside
  · exact inside
  · simp [isPresent, node?, List.getElem?_eq_none outside] at present

theorem getElem?_of_isPresent (present : g.isPresent n = true) : g.paths[n]? = some (g.path n) := by
  have inside := lt_length_of_isPresent present
  rw [path, List.getD_eq_getElem?_getD, List.getElem?_eq_getElem inside, Option.getD_some]

theorem path_of_getElem? {path : String} (numbered : g.paths[n]? = some path) : g.path n = path := by
  rw [Graph.path, List.getD_eq_getElem?_getD, numbered, Option.getD_some]

theorem eq_of_path_eq (present : g.isPresent n = true)
    (numbered : g.paths[m]? = some (g.path m)) (same : g.path n = g.path m) : n = m := by
  refine (List.getElem?_inj (lt_length_of_isPresent present) g.distinct).mp ?_
  rw [getElem?_of_isPresent present, numbered, same]

theorem mem_mentioned :
    m ∈ g.mentioned n ↔ m ≠ n ∧ ∃ node, g.node? n = some node ∧ ∃ path ∈ node.dependencies,
      g.paths[m]? = some path := by
  rw [mentioned]
  cases g.node? n with
  | none => simp
  | some node =>
    simp only [List.mem_filter, mem_firsts, List.mem_filterMap, number?_eq_some g.distinct, decide_eq_true_eq,
      Option.some.injEq, exists_eq_left']
    exact and_comm

theorem isPresent_of_mem_mentioned (mention : m ∈ g.mentioned n) : g.isPresent n = true := by
  rw [mentioned] at mention
  cases selected : g.node? n with
  | none => simp [selected] at mention
  | some node => rw [isPresent, selected, Option.isSome_some]

theorem mem_dependents : m ∈ g.dependents n ↔ m ∈ g.numbers ∧ n ∈ g.dependencies m := by
  simp [dependents]

theorem mem_dependencies : m ∈ g.dependencies n ↔ m ∈ g.mentioned n ∧ g.isPresent m = true := List.mem_filter

def DependsOn (g : Graph) (n m : Nat) : Prop := m ∈ g.dependencies n

theorem DependsOn.isPresent (depends : g.DependsOn n m) : g.isPresent m = true := (mem_dependencies.mp depends).2

theorem nodup_mentioned (g : Graph) (n : Nat) : (g.mentioned n).Nodup := by
  rw [mentioned]
  split
  · exact List.nodup_nil
  · exact (nodup_firsts _).filter _

theorem nodup_dependencies (g : Graph) (n : Nat) : (g.dependencies n).Nodup := (g.nodup_mentioned n).filter _

end ScriptLoader.Graph
