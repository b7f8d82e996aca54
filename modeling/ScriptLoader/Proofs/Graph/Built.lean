import ScriptLoader.Graph.Build
import ScriptLoader.Proofs.Graph.Numbering
import Mathlib.Data.List.Range

/-!
What the loops over the nodes build. Each loop is followed by what one step does to a number and then, by
induction on the list that it goes through, by what the whole loop does. So the lists that are built say of
each number what the graph says of it.
-/

set_option autoImplicit false
namespace ScriptLoader.Graph

/-! ## Entering the nodes -/

section
variable {paths : List String}

theorem getElem?_enter (entered : Entered) (node : Node) (n : Nat) :
    (enter paths entered node)[n]? = entered[n]?.map fun held =>
      if number? paths node.path = some n then some (held.getD node.dependencies) else held := by
  rw [enter]
  cases number? paths node.path with
  | none => simp
  | some m =>
    rw [List.getElem?_modify]
    by_cases same : m = n
    · simp [same]
    · simp [same]

/-- Under each number the first node counts that has it. -/
theorem getElem?_foldl_enter (entered : Entered) (nodes : List Node) (n : Nat) :
    (nodes.foldl (enter paths) entered)[n]? = entered[n]?.map fun held =>
      held.or ((nodes.find? fun node => number? paths node.path = some n).map Node.dependencies) := by
  induction nodes generalizing entered with
  | nil => simp
  | cons node rest ih =>
    rw [List.foldl_cons, ih, getElem?_enter, Option.map_map, List.find?_cons]
    congr 1
    funext held
    by_cases numbered : number? paths node.path = some n
    · cases held <;> simp [numbered]
    · simp [numbered]

/-! ## Joining a node to its dependencies -/

/-- The numbers that paths are seen to have for the first time, other than `n`. -/
def unseen (paths : List String) (n : Nat) (seen : List Nat) (dependencies : List String) : List Nat :=
  (firsts (dependencies.filterMap (number? paths))).filter fun m => m ≠ n ∧ m ∉ seen

theorem unseen_cons_none {path : String} (unnumbered : number? paths path = none) (n : Nat) (seen : List Nat)
    (rest : List String) : unseen paths n seen (path :: rest) = unseen paths n seen rest := by
  rw [unseen, List.filterMap_cons_none unnumbered, unseen]

theorem unseen_cons_some {path : String} {m : Nat} (numbered : number? paths path = some m) (n : Nat) (seen : List Nat)
    (rest : List String) : unseen paths n seen (path :: rest) =
      if m = n ∨ m ∈ seen then unseen paths n seen rest else m :: unseen paths n (m :: seen) rest := by
  rw [unseen, List.filterMap_cons_some numbered, firsts, List.filter_cons, List.filter_filter]
  by_cases passed : m = n ∨ m ∈ seen
  · have dropped : ¬ (m ≠ n ∧ m ∉ seen) := by tauto
    rw [if_neg (by simpa using dropped), if_pos passed, unseen]
    apply List.filter_congr
    intro other _
    by_cases same : other = m
    · simp [same, dropped]
    · simp [same]
  · have kept : m ≠ n ∧ m ∉ seen := by tauto
    rw [if_pos (by simpa using kept), if_neg passed, unseen]
    congr 1
    apply List.filter_congr
    intro other _
    simp only [List.mem_cons, not_or, decide_eq_decide, ← Bool.decide_and]
    tauto

/-- The loop over the paths joins the numbers that are seen for the first time, in this order. -/
theorem foldl_joinPath (entered : Entered) (n : Nat) (dependencies : List String) (held : Joined) (seen : List Nat) :
    (dependencies.foldl (joinPath paths entered n) (held, seen)).1 =
      (unseen paths n seen dependencies).foldl (join paths entered n) held := by
  induction dependencies generalizing held seen with
  | nil => rfl
  | cons path rest ih =>
    rw [List.foldl_cons, joinPath]
    cases numbered : number? paths path with
    | none => rw [unseen_cons_none numbered, ih]
    | some m =>
      rw [unseen_cons_some numbered]
      by_cases passed : m = n ∨ m ∈ seen
      · simp only [if_pos passed, ih]
      · simp only [if_neg passed, ih, List.foldl_cons]

end

variable {g : Graph}

theorem getElem?_entered (n : Nat) :
    g.entered[n]? = if n < g.paths.length then some ((g.node? n).map Node.dependencies) else none := by
  rw [entered, getElem?_foldl_enter, List.getElem?_replicate]
  by_cases inside : n < g.paths.length
  · have numbered : g.paths[n]? = some g.paths[n] := List.getElem?_eq_getElem inside
    simp only [number?_eq_some g.distinct, numbered, if_pos inside, node?, Option.map_some,
      Option.none_or, Option.some.injEq]
    simp only [eq_comm]
  · rw [if_neg inside, if_neg inside]
    rfl

theorem getD_entered (n : Nat) : g.entered.getD n none = (g.node? n).map Node.dependencies := by
  rw [List.getD_eq_getElem?_getD, getElem?_entered]
  by_cases inside : n < g.paths.length
  · rw [if_pos inside, Option.getD_some]
  · rw [if_neg inside, node?, List.getElem?_eq_none (Nat.le_of_not_lt inside)]
    rfl

theorem isSome_entered (n : Nat) : (g.entered.getD n none).isSome = g.isPresent n := by
  rw [getD_entered, Option.isSome_map, isPresent]

/-! One dependency is joined, and then a list of them. -/

section
variable (held : Joined) (n : Nat)

theorem edges_join (m i : Nat) : (join g.paths g.entered n held m).edges[i]? =
    held.edges[i]?.map (· ++ if i = m ∧ g.isPresent m = true then [n] else []) := by
  rw [join, isSome_entered]
  by_cases present : g.isPresent m = true
  · rw [if_pos present, List.getElem?_modify]
    by_cases same : i = m
    · simp [same, present]
    · simp [same, Ne.symm same]
  · simp [present]

theorem waits_join (m k : Nat) : (join g.paths g.entered n held m).waits[k]? =
    held.waits[k]?.map (· + if k = n ∧ g.isPresent m = true then 1 else 0) := by
  rw [join, isSome_entered]
  by_cases present : g.isPresent m = true
  · rw [if_pos present, List.getElem?_modify]
    by_cases same : k = n
    · simp [same, present]
    · simp [same, Ne.symm same]
  · simp [present]

theorem reported_join (m : Nat) : (join g.paths g.entered n held m).reported =
    held.reported ++ if g.isPresent m = true then [] else [notPresent (g.path m) (g.path n)] := by
  rw [join, isSome_entered]
  by_cases present : g.isPresent m = true
  · simp [present]
  · simp [present, path]

theorem edges_foldl_join {numbers : List Nat} (once : numbers.Nodup) (i : Nat) :
    (numbers.foldl (join g.paths g.entered n) held).edges[i]? =
      held.edges[i]?.map (· ++ if i ∈ numbers.filter g.isPresent then [n] else []) := by
  induction numbers generalizing held with
  | nil => simp
  | cons m rest ih =>
    obtain ⟨absent, once⟩ := List.nodup_cons.mp once
    rw [List.foldl_cons, ih _ once, edges_join, Option.map_map]
    congr 1
    funext dependents
    by_cases same : i = m
    · subst same
      by_cases present : g.isPresent i = true <;> simp [present, absent]
    · simp [same]

theorem waits_foldl_join (numbers : List Nat) (k : Nat) :
    (numbers.foldl (join g.paths g.entered n) held).waits[k]? =
      held.waits[k]?.map (· + if k = n then (numbers.filter g.isPresent).length else 0) := by
  induction numbers generalizing held with
  | nil => simp
  | cons m rest ih =>
    rw [List.foldl_cons, ih, waits_join, Option.map_map]
    congr 1
    funext count
    by_cases own : k = n
    · by_cases present : g.isPresent m = true
      · simp [own, present]
        omega
      · simp [own, present]
    · simp [own]

theorem reported_foldl_join (numbers : List Nat) :
    (numbers.foldl (join g.paths g.entered n) held).reported =
      held.reported ++ (numbers.filter (!g.isPresent ·)).map fun m => notPresent (g.path m) (g.path n) := by
  induction numbers generalizing held with
  | nil => simp
  | cons m rest ih =>
    rw [List.foldl_cons, ih, reported_join]
    by_cases present : g.isPresent m = true <;> simp [present]

/-- A project that is present is joined to the numbers that it mentions, and any other to none. -/
theorem joinNode_eq : joinNode g.paths g.entered held n = (g.mentioned n).foldl (join g.paths g.entered n) held := by
  rw [joinNode, getD_entered, mentioned]
  cases g.node? n with
  | none => rfl
  | some node =>
    dsimp only [Option.map_some]
    rw [foldl_joinPath, unseen]
    simp only [List.not_mem_nil, not_false_eq_true, and_true]

/-! The projects are gone through. -/

theorem edges_foldl_joinNode (numbers : List Nat) (i : Nat) :
    (numbers.foldl (joinNode g.paths g.entered) held).edges[i]? =
      held.edges[i]?.map (· ++ numbers.filter fun n => (g.dependencies n).contains i) := by
  induction numbers generalizing held with
  | nil => simp
  | cons n rest ih =>
    rw [List.foldl_cons, ih, joinNode_eq, edges_foldl_join held n (g.nodup_mentioned n), Option.map_map]
    congr 1
    funext dependents
    by_cases depends : i ∈ g.dependencies n
    · have joined : i ∈ (g.mentioned n).filter g.isPresent := depends
      simp [depends, joined]
    · have separate : i ∉ (g.mentioned n).filter g.isPresent := depends
      simp [depends, separate]

theorem waits_foldl_joinNode (numbers : List Nat) (k : Nat) :
    (numbers.foldl (joinNode g.paths g.entered) held).waits[k]? =
      held.waits[k]?.map (· + numbers.count k * (g.dependencies k).length) := by
  induction numbers generalizing held with
  | nil => simp
  | cons n rest ih =>
    rw [List.foldl_cons, ih, joinNode_eq, waits_foldl_join, Option.map_map]
    congr 1
    funext count
    by_cases own : n = k
    · subst own
      rw [Function.comp_apply, if_pos rfl, List.count_cons_self, Nat.add_one_mul, dependencies]
      omega
    · rw [Function.comp_apply, if_neg (Ne.symm own), List.count_cons_of_ne own, Nat.add_zero]

theorem reported_foldl_joinNode (numbers : List Nat) :
    (numbers.foldl (joinNode g.paths g.entered) held).reported = held.reported ++ numbers.flatMap fun n =>
      ((g.mentioned n).filter (!g.isPresent ·)).map fun m => notPresent (g.path m) (g.path n) := by
  induction numbers generalizing held with
  | nil => simp
  | cons n rest ih =>
    rw [List.foldl_cons, ih, joinNode_eq, reported_foldl_join, List.flatMap_cons, List.append_assoc]

end

/-! ## What is built -/

theorem increasing_dependents (g : Graph) (i : Nat) : (g.dependents i).Pairwise (· < ·) :=
  List.pairwise_lt_range.filter _

theorem present_build : g.build.present = g.numbers.map g.isPresent := by
  apply List.ext_getElem?
  intro n
  rw [build, List.getElem?_map, getElem?_entered, List.getElem?_map, numbers]
  by_cases inside : n < g.paths.length
  · rw [if_pos inside, List.getElem?_range inside, Option.map_some, Option.map_some, Option.isSome_map, isPresent]
  · rw [if_neg inside, List.getElem?_eq_none (by simpa using inside)]
    rfl

/-- The numbers are gone through in increasing order, so that what is joined is in order already. -/
theorem edges_build : g.build.edges = g.numbers.map g.dependents := by
  apply List.ext_getElem?
  intro i
  rw [build, List.getElem?_map, edges_foldl_joinNode, separate, List.getElem?_replicate, List.getElem?_map, numbers]
  by_cases inside : i < g.paths.length
  · have sorted : ([] ++ g.dependents i).mergeSort = g.dependents i :=
      List.mergeSort_of_pairwise ((increasing_dependents g i).imp fun less => decide_eq_true (Nat.le_of_lt less))
    rw [if_pos inside, List.getElem?_range inside, Option.map_some, Option.map_some, Option.map_some, ← sorted]
    rfl
  · rw [if_neg inside, List.getElem?_eq_none (by simpa using inside)]
    rfl

theorem waits_build : g.build.waits = g.numbers.map fun n => (g.dependencies n).length := by
  apply List.ext_getElem?
  intro k
  rw [build, waits_foldl_joinNode, separate, List.getElem?_replicate, List.getElem?_map, numbers]
  by_cases inside : k < g.paths.length
  · have once : (List.range g.paths.length).count k = 1 :=
      List.count_eq_one_of_mem List.nodup_range (List.mem_range.mpr inside)
    rw [if_pos inside, List.getElem?_range inside, Option.map_some, Option.map_some, once, Nat.zero_add, Nat.one_mul]
  · rw [if_neg inside, List.getElem?_eq_none (by simpa using inside)]
    rfl

/-- The pairs of a number and a project that names it, where nothing is given for the number. -/
def absences (g : Graph) : List (Nat × Nat) :=
  g.numbers.flatMap fun j => ((g.mentioned j).filter (!g.isPresent ·)).map fun i => (i, j)

theorem reported_build :
    g.build.reported = g.absences.map fun pair => notPresent (g.path pair.1) (g.path pair.2) := by
  rw [build, reported_foldl_joinNode, absences, List.map_flatMap]
  simp only [List.map_map]
  rfl

/-- Where nothing is reported, everything that is mentioned is present. -/
theorem isPresent_of_reported_eq_nil {n m : Nat} (nothing : g.build.reported = []) (mention : m ∈ g.mentioned n) :
    g.isPresent m = true := by
  by_contra absent
  have inside : n ∈ g.numbers := List.mem_range.mpr (lt_length_of_isPresent (isPresent_of_mem_mentioned mention))
  have none_absent : (m, n) ∉ g.absences := by
    rw [reported_build, List.map_eq_nil_iff] at nothing
    simp [nothing]
  apply none_absent
  simp only [absences, List.mem_flatMap, List.mem_map, List.mem_filter]
  exact ⟨n, inside, m, ⟨mention, by simpa using absent⟩, rfl⟩

/-! ## What is built, by the paths -/

/-- A node is given for the path of a number. -/
def Given (g : Graph) (n : Nat) : Prop := ∃ path, g.paths[n]? = some path ∧ ∃ node ∈ g.nodes, node.path = path

/-- The first node that is given for the path of `n` names the path of `m`. -/
def Names (g : Graph) (n m : Nat) : Prop :=
  ∃ own other node, g.paths[n]? = some own ∧ g.paths[m]? = some other ∧ g.nodes.find? (·.path = own) = some node ∧
    other ∈ node.dependencies

theorem isPresent_iff_given {n : Nat} : g.isPresent n = true ↔ g.Given n := by
  rw [isPresent, node?, Given]
  cases g.paths[n]? with
  | none => simp
  | some path => simp [List.find?_isSome, and_comm, @eq_comm _ path]

theorem node?_eq_some {n : Nat} {node : Node} :
    g.node? n = some node ↔ ∃ own, g.paths[n]? = some own ∧ g.nodes.find? (·.path = own) = some node := by
  rw [node?]
  cases g.paths[n]? with
  | none => simp
  | some path => simp

theorem mem_mentioned_iff_names {n m : Nat} : m ∈ g.mentioned n ↔ m ≠ n ∧ g.Names n m := by
  rw [mem_mentioned]
  simp only [node?_eq_some, Names]
  constructor
  · rintro ⟨differs, node, ⟨own, numbered, first⟩, other, named, numbered'⟩
    exact ⟨differs, own, other, node, numbered, numbered', first, named⟩
  · rintro ⟨differs, own, other, node, numbered, numbered', first, named⟩
    exact ⟨differs, node, ⟨own, numbered, first⟩, other, named, numbered'⟩

theorem Names.given {n m : Nat} (names : g.Names n m) : g.Given n := by
  obtain ⟨own, -, node, numbered, -, first, -⟩ := names
  exact ⟨own, numbered, node, List.mem_of_find?_eq_some first, by simpa using List.find?_some first⟩

theorem lt_length_of_given {n : Nat} (given : g.Given n) : n < g.paths.length :=
  lt_length_of_isPresent (isPresent_iff_given.mpr given)

/-- The dependents of a project that is present name it; those of any other number would have to name a path
that is none. -/
theorem mem_dependents_iff_names {i j : Nat} :
    j ∈ g.dependents i ↔ i ≠ j ∧ g.Given i ∧ g.Given j ∧ g.Names j i := by
  rw [mem_dependents, mem_dependencies, mem_mentioned_iff_names, isPresent_iff_given]
  constructor
  · rintro ⟨-, ⟨differs, names⟩, given⟩
    exact ⟨differs, given, names.given, names⟩
  · rintro ⟨differs, given, given', names⟩
    exact ⟨List.mem_range.mpr (lt_length_of_given given'), ⟨differs, names⟩, given⟩

theorem mem_absences {i j : Nat} :
    (i, j) ∈ g.absences ↔ i ≠ j ∧ ¬ g.Given i ∧ g.Given j ∧ g.Names j i := by
  simp only [absences, List.mem_flatMap, List.mem_map, List.mem_filter, mem_mentioned_iff_names, Prod.mk.injEq]
  constructor
  · rintro ⟨_, -, _, ⟨⟨differs, names⟩, absent⟩, rfl, rfl⟩
    exact ⟨differs, by simpa [← isPresent_iff_given] using absent, names.given, names⟩
  · rintro ⟨differs, absent, given, names⟩
    exact ⟨j, List.mem_range.mpr (lt_length_of_given given), i,
      ⟨⟨differs, names⟩, by simpa [← isPresent_iff_given] using absent⟩, rfl, rfl⟩

theorem nodup_absences (g : Graph) : g.absences.Nodup := by
  rw [absences, List.nodup_flatMap]
  constructor
  · intro j _
    exact ((g.nodup_mentioned j).filter _).map fun _ _ same => (Prod.mk.inj same).1
  · refine List.nodup_range.imp fun differs => ?_
    rintro ⟨i, j⟩ here there
    obtain ⟨_, -, same⟩ := List.mem_map.mp here
    obtain ⟨_, -, same'⟩ := List.mem_map.mp there
    exact differs ((Prod.mk.inj same).2.trans (Prod.mk.inj same').2.symm)

/-! Lists by number are looked up by number, also beyond their ends. -/

theorem getD_map_numbers {α : Type} (f : Nat → α) {n : Nat} {otherwise : α}
    (beyond : g.paths.length ≤ n → f n = otherwise) :
    (g.numbers.map f).getD n otherwise = f n := by
  rw [List.getD_eq_getElem?_getD, List.getElem?_map, numbers]
  rcases Nat.lt_or_ge n g.paths.length with inside | outside
  · rw [List.getElem?_range inside]
    rfl
  · rw [List.getElem?_eq_none (by simpa using outside), beyond outside]
    rfl

theorem getD_present_build (n : Nat) : g.build.present.getD n false = g.isPresent n := by
  rw [present_build]
  apply getD_map_numbers
  intro outside
  simpa using fun present => Nat.not_lt.mpr outside (lt_length_of_isPresent present)

theorem getD_edges_build (i : Nat) : g.build.edges.getD i [] = g.dependents i := by
  rw [edges_build]
  apply getD_map_numbers
  intro outside
  apply List.eq_nil_iff_forall_not_mem.mpr
  intro j mem
  exact Nat.not_lt.mpr outside (lt_length_of_given ((mem_dependents_iff_names).mp mem).2.1)

theorem getD_waits_build (j : Nat) : g.build.waits.getD j 0 = (g.dependencies j).length := by
  rw [waits_build]
  apply getD_map_numbers
  intro outside
  apply List.length_eq_zero_iff.mpr
  apply List.eq_nil_iff_forall_not_mem.mpr
  intro i mem
  exact Nat.not_lt.mpr outside (lt_length_of_isPresent (isPresent_of_mem_mentioned (mem_dependencies.mp mem).1))

/-- How many projects a project waits for is how many have it among their dependents. -/
theorem length_dependencies (j : Nat) :
    (g.dependencies j).length = (g.numbers.filter fun i => j ∈ g.dependents i).length := by
  apply List.Perm.length_eq
  have once : (g.numbers.filter fun i => j ∈ g.dependents i).Nodup := List.nodup_range.filter _
  rw [List.perm_ext_iff_of_nodup (g.nodup_dependencies j) once]
  intro i
  rw [mem_dependencies, mem_mentioned_iff_names, isPresent_iff_given, List.mem_filter, decide_eq_true_eq,
    mem_dependents_iff_names]
  constructor
  · rintro ⟨⟨differs, names⟩, given⟩
    exact ⟨List.mem_range.mpr (lt_length_of_given given), differs, given, names.given, names⟩
  · rintro ⟨-, differs, given, -, names⟩
    exact ⟨⟨differs, names⟩, given⟩

/-- Whatever nodes are given to a graph with the numbers of an index: a number is present exactly when a node
is given for its path. The dependents of `i` are the other present projects of which the first node that is
given names the path of `i`; they stand in strictly increasing order, so each once. A project waits for as
many projects as it is a dependent of. And one error, in the file of the project, is reported for each pair of
a present project and another number that it names but that is not present. -/
theorem build_joins_each_dependency_once (known given : List Node) :
    let g := numbered known given
    let built := g.build
    (built.present.length = g.paths.length ∧ built.edges.length = g.paths.length ∧
    built.waits.length = g.paths.length) ∧ (∀ n, built.present.getD n false = true ↔ g.Given n) ∧
    (∀ i j, j ∈ built.edges.getD i [] ↔ i ≠ j ∧ g.Given i ∧ g.Given j ∧ g.Names j i) ∧
    (∀ i, (built.edges.getD i []).Pairwise (· < ·)) ∧
    (∀ j, built.waits.getD j 0 = ((List.range g.paths.length).filter fun i => j ∈ built.edges.getD i []).length) ∧
    ∃ pairs : List (Nat × Nat), pairs.Nodup ∧
      (∀ i j, (i, j) ∈ pairs ↔ i ≠ j ∧ ¬ g.Given i ∧ g.Given j ∧ g.Names j i) ∧
      built.reported = (pairs.map fun pair => notPresent (g.path pair.1) (g.path pair.2)) ∧
      ∀ path file, (notPresent path file).category = .error ∧ (notPresent path file).code.value = 6053 ∧
        (notPresent path file).file = file ∧ (notPresent path file).message = "File '" ++ path ++ "' not found." := by
  intro g built
  refine ⟨?_, ?_, ?_, ?_, ?_, g.absences, g.nodup_absences, ?_, reported_build, ?_⟩
  · rw [g.present_build, g.edges_build, g.waits_build]
    simp [numbers]
  · intro n
    rw [getD_present_build, isPresent_iff_given]
  · intro i j
    rw [getD_edges_build, mem_dependents_iff_names]
  · intro i
    rw [getD_edges_build]
    exact g.increasing_dependents i
  · intro j
    simp only [built, getD_edges_build]
    rw [getD_waits_build, length_dependencies, numbers]
  · exact fun i j => mem_absences
  · exact fun path file => ⟨rfl, rfl, rfl, rfl⟩

end ScriptLoader.Graph
