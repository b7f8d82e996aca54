import ScriptLoader.Bundler.Engine
import ScriptLoader.Proofs.Pipeline.ReferenceBuilds

/-!
A compilation that checks does not succeed unless every project that the configuration refers to, directly
or through others, could be used and was built.
-/

set_option autoImplicit false
namespace ScriptLoader

open Relation Project ScriptLoader.Graph

namespace Project

theorem examine_eq_governing {fs : FileSystem} {member candidate : String} {config : Config}
    (examined : (examine fs member candidate).value = .governing config) :
    (parse fs candidate).value = .ok config := by
  rw [examine] at examined
  split at examined
  · rw [Run.value_pure] at examined
    split at examined <;> cases examined
  · rw [Run.value_bind] at examined
    cases result : (parse fs candidate).value with
    | error e => simp [result] at examined
    | ok held =>
      simp only [result, Run.value_pure] at examined
      split at examined
      · cases examined
        rfl
      · cases examined

theorem search_eq_some {fs : FileSystem} {file member : String} {candidates : List String} {config : Config}
    (found : (search fs file member candidates).value = some config) :
    ∃ path, (parse fs path).value = .ok config := by
  induction candidates with
  | nil => cases found
  | cons candidate rest ih =>
    simp only [search, Run.value_bind] at found
    cases examined : (examine fs member candidate).value with
    | governing held =>
      simp only [examined, Run.value_pure, Option.some.injEq] at found
      exact ⟨candidate, found ▸ examine_eq_governing examined⟩
    | absent | inaccessible | unusable | other =>
      rw [examined] at found
      exact ih found

theorem find_eq_some {fs : FileSystem} {file defaults : String} {config : Config}
    (found : (find fs file defaults).value = some config) : ∃ path, (parse fs path).value = .ok config := by
  simp only [find, Run.value_bind] at found
  cases searched : (search fs (fs.abs file) (fs.canonical (fs.abs file)) (candidates (fs.abs file))).value with
  | some held =>
    simp only [searched, Run.value_pure, Option.some.injEq] at found
    exact search_eq_some (found ▸ searched)
  | none =>
    rw [searched] at found
    simp only [fallback] at found
    split at found
    · cases found
    · rw [Run.value_bind] at found
      cases result : (parse fs defaults).value with
      | error e => simp [result] at found
      | ok held =>
        simp only [result, Run.value_pure, Option.some.injEq] at found
        exact ⟨defaults, found ▸ result⟩

end Project

/-- Programs of the engine report what is wrong with the configuration before they emit anything. -/
def Engine.ReportsConfig (engine : Engine) : Prop :=
  ∀ setting request program, (engine.newProgram setting request).value = .ok program →
    ∀ source, ∀ d ∈ request.configDiagnostics, d ∈ program.preEmit source

/-- A bundler that gives every text back and never fails. -/
def Bundler.echo : Bundler where
  transform request := ⟨request.text, [], []⟩
  resolve _ := {}
  build _ := []

theorem Bundler.reportsConfig (bundler : Bundler) : bundler.engine.ReportsConfig := by
  intro setting request program made source d mem
  simp only [engine, newProgram] at made
  split at made
  · cases made
  · split at made
    · cases made
    · cases made
      exact List.mem_append_left _ (List.mem_append_left _ mem)

namespace Pipeline
variable {p : Pipeline} {setting : Setting} {file : String} {hint : Option ModuleFormat} {output : CompileOutput}
  {root : Config}

theorem governing_parsed {fs : FileSystem} (governed : (p.governing fs file).config = some root) :
    ∃ path, (parse fs path).value = .ok root := by
  rw [governing, lookup] at governed
  simp only [Run.value_bind, Run.value_relabel, Run.value_pure] at governed
  cases found : (find fs (fs.abs file) p.options.defaults).value with
  | none =>
    rw [found] at governed
    cases governed
  | some config =>
    rw [found] at governed
    cases governed
    exact find_eq_some found

/-- Nothing that blocks is among the diagnostics of a successful compilation. -/
theorem Completed.not_blocking {references : ReferenceBuilds} {program : Program} {emission : Emission}
    (completed : p.Completed setting file hint references program emission output) {d : Diagnostic}
    (mem : d ∈ diagnosticsOf p.options.checkEnabled program (setting.fs.abs file) references.failed emission)
    (error : d.isError = true) : d.code = .sourceExtensionsWithEmit := by
  have concluded := completed.concluded
  rw [conclude] at concluded
  by_contra other
  have blocks : d ∈ blocking (diagnosticsOf p.options.checkEnabled program (setting.fs.abs file) references.failed
      emission) := List.mem_filter.mpr ⟨mem, by simp [error, other]⟩
  rw [if_pos (List.ne_nil_of_mem blocks)] at concluded
  cases concluded

theorem buildFailure_eq_none {engine : Engine} {path : String} {config : Config}
    (unfailing : buildFailure engine setting path config = none) :
    (engine.buildProject setting config).value = .ok () := by
  rw [buildFailure] at unfailing
  split at unfailing
  · assumption
  · cases unfailing

/-- The stage of references either is left out, where there are none, or builds them. -/
theorem referencesStage_eq_ok {path : String} {governing : Governing} {references : ReferenceBuilds}
    (governed : governing.config = some root)
    (referred : (p.referencesStage setting path governing).value = .ok references) :
    (root.references = [] ∧ (p.referencesStage setting path governing).trace = []) ∨
      ((buildReferences p.engine setting root).value = .ok references ∧
      (p.referencesStage setting path governing).trace =
        framed path .references (buildReferences p.engine setting root).trace) := by
  simp only [referencesStage, governed] at referred ⊢
  split at referred
  · rename_i no_references
    rw [if_pos no_references]
    exact .inl ⟨List.isEmpty_iff.mp no_references, rfl⟩
  · rename_i some_references
    have built := tryStage_eq_ok referred
    rw [if_neg some_references, trace_tryStage built]
    exact .inr ⟨built, rfl⟩

theorem not_refers_of_references_eq_nil {fs : FileSystem} {path : String} (parsed : (parse fs path).value = .ok root)
    (no_references : root.references = []) (other : String) : ¬Refers fs root.path other := by
  rw [refers_iff, references?_eq_some.mpr ⟨root, parse_path parsed, rfl⟩, no_references]
  simp

/-- When a compilation that checks succeeds, the graph of the references has no problem and no build has failed. -/
theorem Completed.nothing_reported {references : ReferenceBuilds} {program : Program} {emission : Emission}
    (completed : p.Completed setting file hint references program emission output)
    (checking : p.options.checkEnabled = true) (reports : p.engine.ReportsConfig)
    (graph_errors : ∀ d ∈ references.graph, d.isError = true ∧ d.code ≠ .sourceExtensionsWithEmit)
    (failed_errors : ∀ d ∈ references.failed, d.isError = true ∧ d.code ≠ .sourceExtensionsWithEmit) :
    references.graph = [] ∧ references.failed = [] := by
  constructor
  · refine List.eq_nil_iff_forall_not_mem.mpr fun d mem => ?_
    have asked : d ∈ (programRequest (setting.fs.abs file) (p.governing setting.fs file)
        references.graph).configDiagnostics := List.mem_append_right _ mem
    have known := reports _ _ _ completed.made (program.sourceFile (setting.fs.abs file)) d asked
    refine (graph_errors d mem).2 (completed.not_blocking ?_ (graph_errors d mem).1)
    rw [diagnosticsOf, checking, if_pos rfl]
    exact List.mem_append_left _ known
  · refine List.eq_nil_iff_forall_not_mem.mpr fun d mem => ?_
    refine (failed_errors d mem).2 (completed.not_blocking ?_ (failed_errors d mem).1)
    exact List.mem_append_right _ (List.mem_append_left _ mem)

/-- A compilation that checks and succeeds after its references were built has built all that they lead to. -/
theorem Completed.references_built {references : ReferenceBuilds} {program : Program} {emission : Emission}
    (completed : p.Completed setting file hint references program emission output)
    (checking : p.options.checkEnabled = true) (reports : p.engine.ReportsConfig) {path : String}
    (parsed : (parse setting.fs path).value = .ok root)
    (referred : (buildReferences p.engine setting root).value = .ok references) :
    ∃ built : List Config,
      built.flatMap (buildTrace p.engine setting) <:+ (buildReferences p.engine setting root).trace ∧
      (∀ path, TransGen (Refers setting.fs) root.path path → path ≠ root.path →
        ∃ config ∈ built, config.path = path ∧ (parse setting.fs path).value = .ok config ∧
          (p.engine.buildProject setting config).value = .ok ()) ∧
      ¬ReachesCycle (DependsOn setting.fs) root.path := by
  obtain ⟨found, logs, complete, -, trace, rfl⟩ := buildReferences_eq_ok parsed referred
  have graph_errors : ∀ d ∈ found.problems root.path, d.isError = true ∧ d.code ≠ .sourceExtensionsWithEmit := by
    intro d mem
    obtain ⟨error, code⟩ := Found.of_mem_problems mem
    refine ⟨error, ?_⟩
    rcases code with code | code <;> rw [code] <;> decide
  have failed_errors : ∀ d ∈ (found.due root.path).filterMap (buildFailure p.engine setting root.path),
      d.isError = true ∧ d.code ≠ .sourceExtensionsWithEmit := by
    intro d mem
    obtain ⟨category, code, -⟩ := of_mem_failures mem
    refine ⟨by rw [Diagnostic.isError, category]; rfl, ?_⟩
    intro same
    rw [same] at code
    cases code
  obtain ⟨no_problems, no_failures⟩ := completed.nothing_reported checking reports graph_errors failed_errors
  obtain ⟨nothing_reported, cycle_none⟩ := List.append_eq_nil_iff.mp no_problems
  have no_cycle : found.graph.cycle? found.graph.sort = none := by simpa using cycle_none
  refine ⟨found.due root.path, trace ▸ List.suffix_append _ _, ?_, ?_⟩
  · intro path reached other
    have parses : Parses setting.fs path := by
      obtain ⟨last, way, refers⟩ := TransGen.tail'_iff.mp reached
      exact complete.parses_of_refers nothing_reported way refers
    have due : Due setting.fs root.path path := ⟨reached.to_reflTransGen, parses, other,
      complete.not_reachesCycle no_cycle reached.to_reflTransGen parses⟩
    obtain ⟨config, mem, rfl⟩ := List.mem_map.mp (complete.mem_due.mpr due)
    have unfailing := List.filterMap_eq_nil_iff.mp no_failures config mem
    exact ⟨config, mem, rfl, complete.parse_of_mem_due mem, buildFailure_eq_none unfailing⟩
  · exact complete.not_reachesCycle no_cycle .refl ⟨root, parse_path parsed⟩

theorem compile_echo :
    (compile ⟨Bundler.echo.engine, {}⟩ ⟨chainOfProjects, false⟩ "/p/a.ts" none).value = .ok ⟨"", .commonJS⟩ ∧
      ((governing ⟨Bundler.echo.engine, {}⟩ chainOfProjects "/p/a.ts").config.map (·.path)) =
      some "/p/tsconfig.json" := by
  decide +kernel

/-- When a compilation that checks succeeds, every other project that its configuration refers to, directly or through
others, can be used, was built in the course of it, and built without an error; and none of them depends on a cycle. -/
theorem compile_ok_references_built (hint : Option ModuleFormat) (checking : p.options.checkEnabled = true)
    (reports : p.engine.ReportsConfig) (compiled : (p.compile setting file hint).value = .ok output)
    (governed : (p.governing setting.fs file).config = some root) :
    ∃ built : List Config,
      built.flatMap (buildTrace p.engine setting) <:+: (p.compile setting file hint).trace ∧
      (∀ path, TransGen (Refers setting.fs) root.path path → path ≠ root.path →
        ∃ config ∈ built, config.path = path ∧ (parse setting.fs path).value = .ok config ∧
          (p.engine.buildProject setting config).value = .ok ()) ∧
      ¬ReachesCycle (DependsOn setting.fs) root.path := by
  obtain ⟨references, program, emission, completed⟩ := completed_of_compile compiled
  obtain ⟨path, parsed⟩ := governing_parsed governed
  rcases referencesStage_eq_ok governed completed.referred with ⟨no_references, -⟩ | ⟨referred, told⟩
  · have no_refers := not_refers_of_references_eq_nil parsed no_references
    refine ⟨[], List.nil_infix, ?_, ?_⟩
    · intro other reached
      obtain ⟨next, refers, -⟩ := TransGen.head'_iff.mp reached
      exact absurd refers (no_refers next)
    · intro cyclic
      obtain ⟨next, depends, -⟩ := cyclic.step
      exact no_refers next depends.1
  · obtain ⟨built, asked, all_built, acyclic⟩ := completed.references_built checking reports parsed referred
    have in_stage := asked.isInfix.trans (told ▸ infix_framed _ _ _)
    exact ⟨built, in_stage.trans completed.infix_trace, all_built, acyclic⟩

/-- The last project of a chain was built when a file of the first is compiled. -/
theorem compile_chainOfProjects_built :
    ∃ config, (parse chainOfProjects "/p/r/tsconfig.json").value = .ok config ∧
      .askedBuild config ∈ (compile ⟨Bundler.echo.engine, {}⟩ ⟨chainOfProjects, false⟩ "/p/a.ts" none).trace ∧
      (Bundler.echo.engine.buildProject ⟨chainOfProjects, false⟩ config).value = .ok () := by
  let p : Pipeline := ⟨Bundler.echo.engine, {}⟩
  let setting : Setting := ⟨chainOfProjects, false⟩
  obtain ⟨compiled, governed⟩ := compile_echo
  obtain ⟨root, governed, path_root⟩ := Option.map_eq_some_iff.mp governed
  have governed_there : (p.governing setting.fs "/p/a.ts").config = some root := governed
  have compiled_there : (p.compile setting "/p/a.ts" none).value = .ok ⟨"", .commonJS⟩ := compiled
  obtain ⟨built, asked, all_built, -⟩ :=
    compile_ok_references_built none rfl Bundler.echo.reportsConfig compiled_there governed_there
  have reached : TransGen (Refers setting.fs) root.path "/p/r/tsconfig.json" := by
    rw [path_root]
    exact (reflTransGen_iff_eq_or_transGen.mp due_chainOfProjects.2.1).resolve_left (by decide)
  obtain ⟨config, mem, -, parsed, unfailing⟩ := all_built _ reached (by rw [path_root]; decide)
  refine ⟨config, parsed, asked.subset ?_, unfailing⟩
  exact List.mem_flatMap.mpr ⟨config, mem, List.mem_cons_self⟩

end Pipeline
end ScriptLoader
