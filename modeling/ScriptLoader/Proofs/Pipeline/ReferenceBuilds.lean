import ScriptLoader.Proofs.Graph.Built
import ScriptLoader.Proofs.Pipeline.ReferenceGraph

/-!
Which projects are built before the one that refers to them, in which order, and what becomes of a build
that fails.
-/

set_option autoImplicit false
namespace ScriptLoader.Pipeline

open Relation Project ScriptLoader.Graph

section
variable (engine : Engine) (setting : Setting) (root : String)

/-- What one build leaves in the trace: the question, what the engine does, and the log of its end. -/
def buildTrace (config : Config) : List Happening :=
  .askedBuild config :: ((engine.buildProject setting config).trace ++
    (buildLog config.path setting.cancelled (engine.buildProject setting config).value).map .log)

def buildFailure (config : Config) : Option Diagnostic :=
  match (engine.buildProject setting config).value with
  | .ok () => none
  | .error e => some (notBuilt root config.path e)

theorem of_mem_failures {engine : Engine} {setting : Setting} {root : String} {configs : List Config} {d : Diagnostic}
    (mem : d ∈ configs.filterMap (buildFailure engine setting root)) :
    d.category = .error ∧ d.code.value = 6305 ∧ d.file = root := by
  obtain ⟨config, -, told⟩ := List.mem_filterMap.mp mem
  rw [buildFailure] at told
  split at told
  · cases told
  · cases told
    exact ⟨rfl, rfl, rfl⟩

theorem trace_buildOne (config : Config) :
    (buildOne engine setting root config).trace = buildTrace engine setting config := by
  simp [buildOne, buildTrace]

theorem value_buildOne (config : Config) :
    (buildOne engine setting root config).value =
      .ofResult root config.path setting.cancelled (engine.buildProject setting config).value := rfl

theorem trace_buildBatch (configs : List Config) :
    (buildBatch engine setting root configs).trace = configs.flatMap (buildTrace engine setting) := by
  induction configs with
  | nil => rfl
  | cons config rest ih => simp [buildBatch, trace_buildOne, ih]

theorem value_buildBatch (configs : List Config) :
    (buildBatch engine setting root configs).value =
      configs.map fun config => (buildOne engine setting root config).value := by
  induction configs with
  | nil => rfl
  | cons config rest ih => simp [buildBatch, ih]

variable {engine setting root}

/-- A build that was not called off is reported when it failed. -/
theorem failure?_buildOne {config : Config} (going : (buildOne engine setting root config).value ≠ .calledOff) :
    (buildOne engine setting root config).value.failure? = buildFailure engine setting root config := by
  rw [value_buildOne] at going ⊢
  rw [buildFailure]
  cases result : (engine.buildProject setting config).value with
  | ok done => rfl
  | error e =>
    rw [result, BuildOutcome.ofResult] at going
    rw [BuildOutcome.ofResult]
    split at going
    · exact absurd rfl going
    · rename_i not_cancelled
      rw [if_neg not_cancelled]
      rfl

/-- When building comes to its end, every project was built in turn, and those that failed are reported. -/
theorem buildBatches_eq_ok {batches : List (List Config)} {failed : List Diagnostic}
    (ended : (buildBatches engine setting root batches).value = .ok failed) :
    (buildBatches engine setting root batches).trace = batches.flatten.flatMap (buildTrace engine setting) ∧
      failed = batches.flatten.filterMap (buildFailure engine setting root) := by
  induction batches generalizing failed with
  | nil =>
    cases ended
    exact ⟨rfl, rfl⟩
  | cons batch rest ih =>
    rw [buildBatches] at ended ⊢
    by_cases calledOff : (buildBatch engine setting root batch).value.contains .calledOff
    · simp only [Run.value_bind, calledOff, if_true] at ended
      cases ended
    · have going : ∀ config ∈ batch, (buildOne engine setting root config).value ≠ .calledOff := by
        intro config mem off
        rw [value_buildBatch] at calledOff
        exact calledOff (List.contains_iff_mem.mpr (List.mem_map.mpr ⟨config, mem, off⟩))
      have reported : (buildBatch engine setting root batch).value.filterMap BuildOutcome.failure? =
          batch.filterMap (buildFailure engine setting root) := by
        rw [value_buildBatch, List.filterMap_map]
        exact List.filterMap_congr fun config mem => failure?_buildOne (going config mem)
      simp only [Run.value_bind, Run.trace_bind, calledOff, Bool.false_eq_true, if_false] at ended ⊢
      cases later : (buildBatches engine setting root rest).value with
      | error e =>
        simp only [later, Run.value_pure] at ended
        cases ended
      | ok others =>
        obtain ⟨trace, failures⟩ := ih later
        simp only [later, Run.value_pure, Except.ok.injEq] at ended
        simp only [trace, trace_buildBatch, ← ended, reported, failures, Run.trace_pure, List.flatten_cons,
          List.flatMap_append, List.filterMap_append, List.append_nil, and_self]

theorem buildBatches_of_going (engine : Engine) (root : String) (going : setting.cancelled = false)
    (batches : List (List Config)) :
    ∃ failed, (buildBatches engine setting root batches).value = .ok failed := by
  induction batches with
  | nil => exact ⟨[], rfl⟩
  | cons batch rest ih =>
    obtain ⟨later, ended⟩ := ih
    have not_off : (buildBatch engine setting root batch).value.contains .calledOff = false := by
      rw [value_buildBatch, ← Bool.not_eq_true, List.contains_iff_mem]
      intro mem
      obtain ⟨config, -, off⟩ := List.mem_map.mp mem
      rw [value_buildOne, going] at off
      cases result : (engine.buildProject setting config).value with
      | ok done => simp [result, BuildOutcome.ofResult] at off
      | error e => simp [result, BuildOutcome.ofResult] at off
    rw [buildBatches]
    simp only [Run.value_bind, not_off, Bool.false_eq_true, if_false, ended]
    exact ⟨_, rfl⟩

end

/-! ## Any order within the batches -/

section
variable {α : Type} {batches schedule : List (List α)} (same : List.Forall₂ List.Perm batches schedule)
include same

theorem perm_flatten : schedule.flatten.Perm batches.flatten := by
  induction same with
  | nil => exact .refl []
  | cons first _ ih =>
    rw [List.flatten_cons, List.flatten_cons]
    exact first.symm.append ih

theorem pairwise_flatten {R : α → α → Prop} (ordered : batches.flatten.Pairwise R)
    (free : ∀ batch ∈ batches, batch.Pairwise fun a b => R a b ∧ R b a) : schedule.flatten.Pairwise R := by
  induction same with
  | nil => exact .nil
  | cons first rest ih =>
    rw [List.flatten_cons, List.pairwise_append] at ordered ⊢
    obtain ⟨free_first, free_rest⟩ := List.forall_mem_cons.mp free
    obtain ⟨-, ordered_rest, across⟩ := ordered
    have shuffled := (first.pairwise_iff fun both => ⟨both.2, both.1⟩).mp free_first
    refine ⟨shuffled.imp And.left, ih ordered_rest free_rest, fun a mem b mem' => ?_⟩
    exact across a (first.mem_iff.mpr mem) b ((perm_flatten rest).mem_iff.mp mem')

end

namespace Found

def reached (fs : FileSystem) (root : Config) : Found :=
  (discover fs FileSystem.pathBound [(root.path, some root)] [root]).value.1

def batches (found : Found) (root : String) : List (List Config) :=
  found.graph.sort.batches.map fun batch => batchConfigs root found (batch.map found.graph.path)

def due (found : Found) (root : String) : List Config :=
  batchConfigs root found (found.graph.sort.sequence.map found.graph.path)

def problems (found : Found) (root : String) : List Diagnostic :=
  found.graph.build.reported ++ ((found.graph.cycle? found.graph.sort).map (·.inFile root)).toList

theorem batchConfigs_append (root : String) (found : Found) (first second : List String) :
    batchConfigs root found (first ++ second) = batchConfigs root found first ++ batchConfigs root found second := by
  simp only [batchConfigs, List.filter_append, List.filterMap_append]

theorem flatten_batches (found : Found) (root : String) : (found.batches root).flatten = found.due root := by
  rw [batches, due, Graph.sequence_eq_flatten]
  induction found.graph.sort.batches with
  | nil => rfl
  | cons batch rest ih =>
    rw [List.map_cons, List.flatten_cons, List.flatten_cons, List.map_append, batchConfigs_append, ih]

section
variable {fs : FileSystem} {root : String} {found : Found} (complete : found.Complete fs root)
include complete

theorem Complete.paths_batchConfigs {paths : List String}
    (usable : ∀ path ∈ paths, ReflTransGen (Refers fs) root path ∧ Parses fs path) :
    (batchConfigs root found paths).map (·.path) = paths.filter (· ≠ root) := by
  rw [batchConfigs]
  induction paths with
  | nil => rfl
  | cons path rest ih =>
    have later := ih fun other mem => usable other (List.mem_cons_of_mem path mem)
    by_cases is_root : path = root
    · simpa [is_root] using later
    · obtain ⟨reached, config, parsed⟩ := usable path List.mem_cons_self
      have held := complete.mem_iff.mpr ⟨reached, parsed⟩
      have looked_up := (lookup_eq_some complete.nodup).mpr held
      simpa [is_root, looked_up, complete.path_eq complete.clean held] using later

/-- The projects to build are those in the order of the graph, without the root. -/
theorem Complete.paths_due :
    (found.due root).map (·.path) = (found.graph.sort.sequence.map found.graph.path).filter (· ≠ root) :=
  complete.paths_batchConfigs fun _ mem =>
    ⟨(complete.mem_sequence_iff.mp mem).1, (complete.mem_sequence_iff.mp mem).2.1⟩

theorem Complete.pairwise_due :
    (found.due root).Pairwise fun earlier later => ¬TransGen (Refers fs) earlier.path later.path := by
  have ordered : ((found.due root).map (·.path)).Pairwise fun earlier later => ¬TransGen (Refers fs) earlier later := by
    rw [complete.paths_due]
    exact complete.pairwise_sequence_paths.filter _
  exact List.pairwise_map.mp ordered

theorem Complete.pairwise_batch {batch : List Config} (mem : batch ∈ found.batches root) :
    batch.Pairwise fun config other =>
      ¬TransGen (Refers fs) config.path other.path ∧ ¬TransGen (Refers fs) other.path config.path := by
  obtain ⟨numbers, placed, rfl⟩ := List.mem_map.mp mem
  have usable : ∀ path ∈ numbers.map found.graph.path, ReflTransGen (Refers fs) root path ∧ Parses fs path := by
    intro path held
    have in_order : path ∈ found.graph.sort.sequence.map found.graph.path := by
      rw [sequence_eq_flatten, List.map_flatten]
      exact List.mem_flatten.mpr ⟨_, List.mem_map.mpr ⟨numbers, placed, rfl⟩, held⟩
    exact ⟨(complete.mem_sequence_iff.mp in_order).1, (complete.mem_sequence_iff.mp in_order).2.1⟩
  have apart := (complete.pairwise_batch_paths placed).filter fun path => decide (path ≠ root)
  rw [← complete.paths_batchConfigs usable] at apart
  exact List.pairwise_map.mp apart

theorem Complete.parse_of_mem_due {config : Config} (mem : config ∈ found.due root) :
    (parse fs config.path).value = .ok config := by
  obtain ⟨path, -, looked_up⟩ := List.mem_filterMap.mp mem
  have held : (path, some config) ∈ found := by
    rw [← lookup_eq_some complete.nodup]
    exact Option.join_eq_some_iff.mp looked_up
  rw [complete.path_eq complete.clean held]
  exact complete.parsed held

end
end Found

/-- What the references of a configuration lead to is searched, and then built batch by batch. -/
theorem buildReferences_eq (engine : Engine) {setting : Setting} {file : String} {root : Config}
    (parsed : (parse setting.fs file).value = .ok root) :
    ∃ (found : Found) (logs : List LogEntry), found.Complete setting.fs root.path ∧ found = .reached setting.fs root ∧
      (buildReferences engine setting root).trace =
        logs.map .log ++ (buildBatches engine setting root.path (found.batches root.path)).trace ∧
      (buildReferences engine setting root).value =
        (buildBatches engine setting root.path (found.batches root.path)).value.map
          (ReferenceBuilds.mk (found.problems root.path)) := by
  obtain ⟨found, discovered, complete⟩ := discover_complete parsed
  obtain ⟨logs, told⟩ := discover_logs setting.fs FileSystem.pathBound [(root.path, some root)] [root]
  refine ⟨found, logs, complete, by rw [Found.reached, discovered], ?_, ?_⟩
  · rw [buildReferences]
    simp only [Run.trace_bind, told, discovered]
    rw [← Found.graph, ← Found.batches]
    cases (buildBatches engine setting root.path (found.batches root.path)).value <;>
      simp only [Run.trace_pure, List.append_nil]
  · rw [buildReferences]
    simp only [Run.value_bind, discovered]
    rw [← Found.graph, ← Found.batches, ← Found.problems]
    cases (buildBatches engine setting root.path (found.batches root.path)).value <;> rfl

/-- When the references could be built, the trace tells of each build in turn, and the failed ones are reported. -/
theorem buildReferences_eq_ok {engine : Engine} {setting : Setting} {file : String} {root : Config}
    {references : ReferenceBuilds} (parsed : (parse setting.fs file).value = .ok root)
    (referred : (buildReferences engine setting root).value = .ok references) :
    ∃ (found : Found) (logs : List LogEntry), found.Complete setting.fs root.path ∧ found = .reached setting.fs root ∧
      (buildReferences engine setting root).trace =
        logs.map .log ++ (found.due root.path).flatMap (buildTrace engine setting) ∧
      references =
      ⟨found.problems root.path, (found.due root.path).filterMap (buildFailure engine setting root.path)⟩ := by
  obtain ⟨found, logs, complete, reached, trace, value⟩ := buildReferences_eq engine parsed
  rw [referred] at value
  cases ended : (buildBatches engine setting root.path (found.batches root.path)).value with
  | error e =>
    rw [ended] at value
    cases value
  | ok failed =>
    rw [ended] at value
    obtain ⟨asked, failures⟩ := buildBatches_eq_ok ended
    rw [found.flatten_batches] at asked failures
    exact ⟨found, logs, complete, reached, by rw [trace, asked], failures ▸ Except.ok.inj value⟩

theorem buildReferences_of_going (engine : Engine) {setting : Setting} {file : String} {root : Config}
    (parsed : (parse setting.fs file).value = .ok root) (going : setting.cancelled = false) :
    ∃ references, (buildReferences engine setting root).value = .ok references := by
  obtain ⟨found, -, -, -, -, value⟩ := buildReferences_eq engine parsed
  obtain ⟨failed, ended⟩ := buildBatches_of_going engine root.path going (found.batches root.path)
  rw [ended] at value
  exact ⟨_, value⟩

/-- What is wrong with a graph is an error other than that of a failed build. -/
theorem Found.of_mem_problems {found : Found} {root : String} {d : Diagnostic} (mem : d ∈ found.problems root) :
    d.isError = true ∧ (d.code = .fileNotFound ∨ d.code = .referenceCycle) := by
  rcases List.mem_append.mp mem with mem | mem
  · rw [Graph.reported_build] at mem
    obtain ⟨pair, -, rfl⟩ := List.mem_map.mp mem
    exact ⟨rfl, .inl rfl⟩
  · rw [Graph.cycle?] at mem
    split at mem
    · obtain rfl := by simpa using mem
      exact ⟨rfl, .inr rfl⟩
    · simp at mem

/-- The project at a path is to be built before the root: references lead to it, it can be used, and it depends on no
cycle. -/
def Due (fs : FileSystem) (root path : String) : Prop :=
  ReflTransGen (Refers fs) root path ∧ Parses fs path ∧ path ≠ root ∧ ¬ReachesCycle (DependsOn fs) path

theorem Found.Complete.mem_due {fs : FileSystem} {root : String} {found : Found} (complete : found.Complete fs root)
    {path : String} : path ∈ (found.due root).map (·.path) ↔ Due fs root path := by
  rw [complete.paths_due, List.mem_filter, complete.mem_sequence_iff, decide_eq_true_eq, Due]
  constructor
  · rintro ⟨⟨reached, parses, acyclic⟩, other⟩
    exact ⟨reached, parses, other, acyclic⟩
  · rintro ⟨reached, parses, other, acyclic⟩
    exact ⟨⟨reached, parses, acyclic⟩, other⟩

/-- A project that refers to a second one, and this to a third. -/
def chainOfProjects : FileSystem :=
  ⟨⟨[(["p"], .directory), (["q", "p"], .directory), (["r", "p"], .directory), (["a.ts", "p"], .file []),
    (["tsconfig.json", "p"], .file (Text.Utf8.encode
      "\x7b\"files\":[\"a.ts\"],\"references\":[\x7b\"path\":\"q\"\x7d]\x7d")),
    (["tsconfig.json", "q", "p"], .file (Text.Utf8.encode
      "\x7b\"files\":[],\"references\":[\x7b\"path\":\"../r\"\x7d]\x7d")),
    (["tsconfig.json", "r", "p"], .file (Text.Utf8.encode "\x7b\"files\":[]\x7d"))]⟩, "/p", rfl⟩

theorem references_chainOfProjects :
    references? chainOfProjects "/p/tsconfig.json" = some ["/p/q/tsconfig.json"] ∧
      references? chainOfProjects "/p/q/tsconfig.json" = some ["/p/r/tsconfig.json"] ∧
      references? chainOfProjects "/p/r/tsconfig.json" = some [] := by
  decide +kernel

theorem due_chainOfProjects :
    Due chainOfProjects "/p/tsconfig.json" "/p/q/tsconfig.json" ∧
      Due chainOfProjects "/p/tsconfig.json" "/p/r/tsconfig.json" := by
  obtain ⟨first, second, third⟩ := references_chainOfProjects
  have to_q : Refers chainOfProjects "/p/tsconfig.json" "/p/q/tsconfig.json" := by
    rw [refers_iff, first]
    exact List.mem_singleton.mpr rfl
  have to_r : Refers chainOfProjects "/p/q/tsconfig.json" "/p/r/tsconfig.json" := by
    rw [refers_iff, second]
    exact List.mem_singleton.mpr rfl
  have end_r : ¬ReachesCycle (DependsOn chainOfProjects) "/p/r/tsconfig.json" := by
    intro cyclic
    obtain ⟨other, depends, -⟩ := cyclic.step
    have refers := refers_iff.mp depends.1
    simp [third] at refers
  have end_q : ¬ReachesCycle (DependsOn chainOfProjects) "/p/q/tsconfig.json" := by
    intro cyclic
    obtain ⟨other, depends, later⟩ := cyclic.step
    have refers := refers_iff.mp depends.1
    rw [second, Option.getD_some, List.mem_singleton] at refers
    exact end_r (refers ▸ later)
  refine ⟨⟨.single to_q, to_r.parses, by decide, end_q⟩, .tail (.single to_q) to_r, ?_, by decide, end_r⟩
  rw [parses_iff, third]
  rfl

/-- Every project that is due is built once and nothing else is, what a project refers to comes before it, and
a build that fails adds one error to the root and keeps no other build from being made. They are built batch
by batch, and the projects of a batch may be built in any order. -/
theorem buildReferences_builds_each_due_project_once (engine : Engine) {setting : Setting}
    {file : String} {root : Config}
    (parsed : (parse setting.fs file).value = .ok root) (going : setting.cancelled = false) :
    ∃ (logs : List LogEntry) (built : List Config) (graph failed : List Diagnostic),
      (buildReferences engine setting root).trace = logs.map .log ++ built.flatMap (buildTrace engine setting) ∧
      (buildReferences engine setting root).value = .ok ⟨graph, failed⟩ ∧
      (∀ config ∈ built, (parse setting.fs config.path).value = .ok config) ∧
      (built.map (·.path)).Nodup ∧
      (∀ path, path ∈ built.map (·.path) ↔ Due setting.fs root.path path) ∧
      built.Pairwise (fun earlier later => ¬TransGen (Refers setting.fs) earlier.path later.path) ∧
      failed = built.filterMap (buildFailure engine setting root.path) ∧
      (∀ d ∈ failed, d.category = .error ∧ d.code.value = 6305 ∧ d.file = root.path) ∧
      (∀ d ∈ graph, d.code.value ≠ 6305) ∧
      ∃ batches, batches = (Found.reached setting.fs root).batches root.path ∧ built = batches.flatten ∧
        ∀ schedule, List.Forall₂ List.Perm batches schedule →
          schedule.flatten.Pairwise (fun earlier later => ¬TransGen (Refers setting.fs) earlier.path later.path) ∧
          (buildBatches engine setting root.path schedule).trace =
          schedule.flatten.flatMap (buildTrace engine setting) ∧
          ∃ failed', (buildBatches engine setting root.path schedule).value = .ok failed' ∧ failed'.Perm failed := by
  obtain ⟨references, referred⟩ := buildReferences_of_going engine parsed going
  obtain ⟨found, logs, complete, reached, trace, rfl⟩ := buildReferences_eq_ok parsed referred
  refine ⟨logs, found.due root.path, found.problems root.path, _, trace, referred, ?_, ?_, ?_,
    complete.pairwise_due, rfl, ?_, ?_,
    found.batches root.path, by rw [reached], (found.flatten_batches root.path).symm, ?_⟩
  · exact fun config mem => complete.parse_of_mem_due mem
  · rw [complete.paths_due]
    exact found.graph.nodup_sequence_paths.filter _
  · exact fun path => complete.mem_due
  · exact fun d mem => of_mem_failures mem
  · intro d mem
    rcases (Found.of_mem_problems mem).2 with code | code
    · rw [code]
      decide
    · rw [code]
      decide
  · -- Within a batch no project refers to another one, so that its projects may be built in any order.
    intro schedule same
    obtain ⟨failed, ended⟩ := buildBatches_of_going engine root.path going schedule
    obtain ⟨asked, failures⟩ := buildBatches_eq_ok ended
    have shuffled := perm_flatten same
    rw [found.flatten_batches] at shuffled
    refine ⟨pairwise_flatten same ?_ fun batch mem => complete.pairwise_batch mem, asked, failed, ended, ?_⟩
    · rw [found.flatten_batches]
      exact complete.pairwise_due
    · rw [failures]
      exact shuffled.filterMap _

/-- Both projects of a chain are built, the first although the build of the second has failed. -/
theorem buildReferences_chainOfProjects :
    let engine : Engine :=
      ⟨fun _ _ => pure (.error .cancelled), fun _ _ _ _ => pure none, fun _ _ => pure (.error (.failed "broken"))⟩
    ∃ (root : Config) (logs : List LogEntry) (built : List Config) (graph : List Diagnostic),
      (parse chainOfProjects "/p/tsconfig.json").value = .ok root ∧
      (buildReferences engine ⟨chainOfProjects, false⟩ root).trace =
        logs.map .log ++ built.flatMap (buildTrace engine ⟨chainOfProjects, false⟩) ∧
      "/p/q/tsconfig.json" ∈ built.map (·.path) ∧ "/p/r/tsconfig.json" ∈ built.map (·.path) ∧
      (buildReferences engine ⟨chainOfProjects, false⟩ root).value =
        .ok ⟨graph, built.map fun config => notBuilt root.path config.path (.failed "broken")⟩ := by
  intro engine
  let setting : Setting := ⟨chainOfProjects, false⟩
  obtain ⟨root, parsed, -⟩ := references?_eq_some.mp references_chainOfProjects.1
  have parsed_there : (parse setting.fs "/p/tsconfig.json").value = .ok root := parsed
  obtain ⟨logs, built, graph, failed, trace, value, -, -, due, -, failures, -⟩ :=
    buildReferences_builds_each_due_project_once engine parsed_there rfl
  have path_root : root.path = "/p/tsconfig.json" := by
    rw [(parse_eq_ok parsed).1]
    decide +kernel
  rw [path_root] at due
  refine ⟨root, logs, built, graph, parsed, trace, ?_, ?_, ?_⟩
  · exact (due _).mpr due_chainOfProjects.1
  · exact (due _).mpr due_chainOfProjects.2
  · have told : buildFailure engine setting root.path =
        some ∘ fun config => notBuilt root.path config.path (.failed "broken") := rfl
    rw [value, failures, told, List.filterMap_eq_map]

end ScriptLoader.Pipeline
