import ScriptLoader.Proofs.Pipeline.ReferencesHeeded

/-!
The format that a compilation reports and the format that the bundler was asked for. They agree unless the
configuration sets how modules are resolved and leaves the module kind open: then the bundler is asked for
what the resolution or the language level implies, and the host's hint is reported.
-/

set_option autoImplicit false
namespace ScriptLoader

open Project

/-- The format that output has when it was asked for; output that is left as it is may have any. -/
def OutputFormat.reported? : OutputFormat → Option ModuleFormat
  | .unchanged => none
  | .commonJS => some .commonJS
  | .module => some .module

namespace ModuleFormat

theorem implied_eq (fs : FileSystem) (path : String) : implied fs path = .esNext ∨ implied fs path = .commonJS := by
  unfold implied
  split
  · exact .inl rfl
  · split
    · exact .inr rfl
    · dsimp only
      split
      · split
        · exact .inl rfl
        · exact .inr rfl
      · exact .inr rfl

theorem ofKind?_implied (fs : FileSystem) (path : String) :
    ofKind? (implied fs path) = some .module ∨ ofKind? (implied fs path) = some .commonJS := by
  rcases implied_eq fs path with same | same <;> rw [same] <;> decide

section
variable {o : CompilerOptions} {kind : ModuleKind} (name : String) (implied : Option ModuleKind)

theorem infer_of_open (unset : o.moduleKind = none) : infer name implied o = none := by
  unfold infer
  rw [unset]

theorem infer_of_node (set : o.moduleKind = some kind) (node : kind.isNode = true) (own : ModuleKind) :
    infer name (some own) o = ofKind? own := by
  unfold infer
  rw [set]
  exact if_pos node

theorem infer_of_fixed (set : o.moduleKind = some kind) (fixed : kind.isNode = false) :
    infer name implied o = ofKind? kind := by
  unfold infer
  rw [set]
  exact if_neg (by simp [fixed])

end
end ModuleFormat

theorem ModuleKind.not_isES_of_isNode {kind : ModuleKind} (node : kind.isNode = true) : kind.isES = false := by
  have from_node : 100 ≤ kind.value := of_decide_eq_true (Bool.and_eq_true_iff.mp node).1
  have above : ¬kind.value ≤ esNext.value := fun below => absurd (Int.le_trans from_node below) (by decide)
  rw [isES, decide_eq_false above, Bool.and_false]

namespace Bundler
open ModuleFormat

/-- A root file that was read, with the module kind that its place implies where that counts. -/
theorem implied_of_readRoot {fs : FileSystem} {o : CompilerOptions} {name : String} {source : SourceFile}
    (read : readRoot fs o name = some source) :
    source.implied = if o.effectiveModule.isNode then some (implied fs name) else none := by
  rw [readRoot] at read
  split at read
  · cases read
  · cases read
    rfl

/-- Where the module kind is set, the format asked for is the one that is inferred from the options. -/
theorem infer_of_outputFormat {fs : FileSystem} {o : CompilerOptions} {name : String} {source : SourceFile}
    {asked : OutputFormat} {format : ModuleFormat} {kind : ModuleKind} (read : readRoot fs o name = some source)
    (chosen : outputFormat source.fileName source.implied o = .ok asked) (reported : asked.reported? = some format)
    (set : o.moduleKind = some kind) : infer source.fileName source.implied o = some format := by
  have effective : o.effectiveModule = kind := by rw [CompilerOptions.effectiveModule, set]
  simp only [outputFormat, effective] at chosen
  split at chosen
  · cases chosen
    cases reported
  · split at chosen
    · rename_i es
      cases chosen
      have fixed : kind.isNode = false := by
        rw [← Bool.not_eq_true]
        intro node
        rw [ModuleKind.not_isES_of_isNode node] at es
        cases es
      rw [infer_of_fixed _ _ set fixed, ofKind?, if_pos es]
      exact reported
    · split at chosen
      · rename_i common
        cases chosen
        rw [infer_of_fixed _ _ set (by rw [common]; rfl), common]
        exact reported
      · split at chosen
        · -- The kind decides file by file, and the file has a kind of its own.
          rename_i node
          have own := implied_of_readRoot read
          rw [effective, if_pos node] at own
          rw [own, infer_of_node _ rfl node] at chosen
          rw [own, infer_of_node _ set node]
          rcases ofKind?_implied fs name with same | same <;> rw [same] at chosen ⊢ <;> cases chosen <;> exact reported
        · cases chosen

/-- The bundler is asked to transform the file that is emitted, in the format chosen for it. -/
theorem format_of_transformed {bundler : Bundler} {setting : Setting} {o : CompilerOptions} {receiver : Option Receiver}
    {file : Option SourceFile} {request : TransformRequest}
    (asked : .transformed request ∈ (bundler.emit setting o receiver file).trace) :
    ∃ source, file = some source ∧ outputFormat source.fileName source.implied o = .ok request.format := by
  unfold emit at asked
  split at asked
  · cases asked
  · rename_i source
    split at asked
    · cases asked
    · split at asked
      · cases asked
      · rename_i format chosen
        simp only [Run.trace_bind, Run.trace_mark, List.singleton_append, List.mem_cons,
          Happening.transformed.injEq] at asked
        rcases asked with rfl | later
        · exact ⟨source, rfl, chosen⟩
        · split at later <;> simp at later

/-- What is offered was made of the file that is emitted. -/
theorem sources_of_offered {bundler : Bundler} {setting : Setting} {o : CompilerOptions} {receiver : Receiver}
    {source : SourceFile} {artifact : Artifact}
    (offered : artifact ∈ (bundler.emit setting o (some receiver) (some source)).value.offered) :
    artifact.sources = [some source] := by
  unfold emit at offered
  dsimp only at offered
  split at offered
  · cases offered
  · split at offered
    · cases offered
    · rw [Run.value_bind] at offered
      split at offered
      · obtain rfl := List.mem_singleton.mp offered
        rfl
      · cases offered

theorem newProgram_eq_ok {bundler : Bundler} {setting : Setting} {path : String} {governing : Pipeline.Governing}
    {graph : List Diagnostic} {program : Program}
    (made : (bundler.engine.newProgram setting (Pipeline.programRequest path governing graph)).value = .ok program) :
    program.sourceFile path = readRoot setting.fs governing.options path ∧
      ∀ receiver, program.emit receiver = bundler.emit setting governing.options (some receiver) := by
  simp only [engine, newProgram, Pipeline.programRequest] at made
  split at made
  · cases made
  · cases made
    exact ⟨if_pos (by simp), fun _ => rfl⟩

theorem trace_newProgram (bundler : Bundler) (setting : Setting) (request : ProgramRequest) :
    (bundler.engine.newProgram setting request).trace = [] := by
  simp only [engine, newProgram]
  split
  · rfl
  · split <;> rfl

theorem not_transformed_of_buildTrace (bundler : Bundler) (setting : Setting) (config : Config)
    (request : TransformRequest) : .transformed request ∉ Pipeline.buildTrace bundler.engine setting config := by
  have not_there : .transformed request ∉ (bundler.buildProject setting config).trace := by
    unfold buildProject
    split
    · simp
    · split
      · simp
      · dsimp only
        rw [Run.trace_bind]
        split <;> simp
  simp [Pipeline.buildTrace, engine, not_there]

end Bundler

namespace Pipeline

/-- The configuration sets how modules are resolved, but not their kind. -/
def Governing.LeavesModuleOpen (governing : Governing) : Prop :=
  ∃ config, governing.config = some config ∧ config.options.moduleKind = none ∧ config.options.resolution ≠ none

theorem moduleKind_normalize {o : CompilerOptions} {check : Bool} :
    (o.normalize check).moduleKind = none ↔ o.moduleKind = none ∧ o.resolution ≠ none := by
  rw [CompilerOptions.normalize]
  cases o.moduleKind <;> cases o.resolution <;> simp

theorem moduleKind_eq_none (p : Pipeline) (fs : FileSystem) (file : String) :
    (p.governing fs file).options.moduleKind = none ↔ (p.governing fs file).LeavesModuleOpen := by
  simp only [governing, lookup, Run.value_bind, Run.value_relabel, Run.value_pure, Governing.LeavesModuleOpen]
  cases (find fs (fs.abs file) p.options.defaults).value with
  | none =>
    have bare : CompilerOptions.defaults.resolution = none := rfl
    simp [Governing.ofConfig, moduleKind_normalize, bare]
  | some config => simp [Governing.ofConfig, moduleKind_normalize]

theorem transformed_mem_framed {request : TransformRequest} {file : String} {label : Stage} {work : List Happening} :
    .transformed request ∈ framed file label work ↔ .transformed request ∈ work := by
  simp [framed]

section
variable {bundler : Bundler} {options : LoaderOptions} {setting : Setting} {file : String}
  {hint : Option ModuleFormat} {references : ReferenceBuilds} {program : Program} {emission : Emission}
  {output : CompileOutput}

theorem Completed.not_transformed_of_references
    (completed : Completed ⟨bundler.engine, options⟩ setting file hint references program emission output)
    (request : TransformRequest) :
    .transformed request ∉ (referencesStage ⟨bundler.engine, options⟩ setting (setting.fs.abs file)
      (governing ⟨bundler.engine, options⟩ setting.fs file)).trace := by
  cases governed : (governing ⟨bundler.engine, options⟩ setting.fs file).config with
  | none => simp [referencesStage, governed]
  | some root =>
    obtain ⟨path, parsed⟩ := governing_parsed governed
    rcases referencesStage_eq_ok governed completed.referred with ⟨-, told⟩ | ⟨referred, told⟩
    · simp [told]
    · obtain ⟨found, logs, -, -, trace, -⟩ := buildReferences_eq_ok parsed referred
      rw [told, transformed_mem_framed, trace]
      simp [bundler.not_transformed_of_buildTrace]

/-- The bundler is asked to transform a file only when it is emitted. -/
theorem Completed.transformed_in_emit
    (completed : Completed ⟨bundler.engine, options⟩ setting file hint references program emission output)
    {request : TransformRequest}
    (asked : .transformed request ∈ (compile ⟨bundler.engine, options⟩ setting file hint).trace) :
    .transformed request ∈ (program.emit receiver (program.sourceFile (setting.fs.abs file))).trace := by
  have looked_up : .transformed request ∉
      (lookup ⟨bundler.engine, options⟩ setting.fs (setting.fs.abs file) options.checkEnabled).trace := by
    simp [lookup]
  rw [completed.trace] at asked
  simpa [transformed_mem_framed, looked_up, compilingLog, completed.not_transformed_of_references,
    bundler.trace_newProgram] using asked

theorem Completed.format_of_offered {p : Pipeline}
    (completed : p.Completed setting file hint references program emission output) :
    ∃ artifact ∈ emission.offered,
      output.format = artifactFormat (setting.fs.abs file) (p.governing setting.fs file).options hint artifact := by
  have concluded := completed.concluded
  rw [conclude] at concluded
  split at concluded
  · cases concluded
  · split at concluded
    · cases concluded
    · rename_i artifact taken
      have same := congrArg CompileOutput.format (Except.ok.inj concluded)
      dsimp only at same
      exact ⟨artifact, List.mem_of_find?_eq_some taken, same.symm⟩

end

def transforms (trace : List Happening) : List TransformRequest :=
  trace.filterMap fun
    | .transformed request => some request
    | _ => none

theorem mem_transforms {trace : List Happening} {request : TransformRequest} :
    request ∈ transforms trace ↔ .transformed request ∈ trace := by
  rw [transforms, List.mem_filterMap]
  constructor
  · rintro ⟨happening, mem, taken⟩
    split at taken
    · cases taken
      exact mem
    · cases taken
  · exact fun mem => ⟨_, mem, rfl⟩

/-- A file that is a module by its name and that no configuration governs. -/
def moduleAlone : FileSystem := ⟨⟨[(["a.mts"], .file [])]⟩, "/", rfl⟩

theorem compile_moduleAlone :
    (compile ⟨Bundler.echo.engine, {}⟩ ⟨moduleAlone, false⟩ "/a.mts" (some .commonJS)).value.toOption.isSome = true ∧
      (transforms (compile ⟨Bundler.echo.engine, {}⟩ ⟨moduleAlone, false⟩ "/a.mts" (some .commonJS)).trace).map
        (·.format) = [.module] ∧
      (governing ⟨Bundler.echo.engine, {}⟩ moduleAlone "/a.mts").config.isNone = true := by
  decide +kernel

/-- The format that the bundler was asked for is reported, unless the configuration leaves the module kind open; then it
is the format that the host asks for, or else a script, whatever the bundler was asked for. -/
theorem compile_format_agrees_unless_left_open {bundler : Bundler} {options : LoaderOptions} {setting : Setting}
    {file : String} {hint : Option ModuleFormat} {output : CompileOutput} {request : TransformRequest}
    {format : ModuleFormat}
    (compiled : (compile ⟨bundler.engine, options⟩ setting file hint).value = .ok output)
    (asked : .transformed request ∈ (compile ⟨bundler.engine, options⟩ setting file hint).trace)
    (reported : request.format.reported? = some format) :
    (¬(governing ⟨bundler.engine, options⟩ setting.fs file).LeavesModuleOpen → output.format = format) ∧
      ((governing ⟨bundler.engine, options⟩ setting.fs file).LeavesModuleOpen →
      output.format = hint.getD .commonJS) := by
  obtain ⟨references, program, emission, completed⟩ := completed_of_compile compiled
  obtain ⟨reads, emits⟩ := Bundler.newProgram_eq_ok completed.made
  -- The file that was asked for and the file of the script that was taken are the same root file.
  have emitted := completed.transformed_in_emit asked
  obtain ⟨artifact, offered, reported_format⟩ := completed.format_of_offered
  rw [emits] at emitted
  obtain ⟨source, read, chosen⟩ := Bundler.format_of_transformed emitted
  rw [← completed.emitted, emits, read] at offered
  have sources := Bundler.sources_of_offered offered
  rw [artifactFormat, decidingSource, sources] at reported_format
  rw [reads] at read
  rw [← moduleKind_eq_none]
  constructor
  · intro set
    obtain ⟨kind, set⟩ := Option.ne_none_iff_exists'.mp set
    rw [reported_format, Bundler.infer_of_outputFormat read chosen reported set]
    rfl
  · intro unset
    rw [reported_format, ModuleFormat.infer_of_open _ _ unset]
    rfl

/-- A file that is a module by its name is reported as one, although the host asks for a script. -/
theorem compile_moduleAlone_format :
    ∃ output request, (compile ⟨Bundler.echo.engine, {}⟩ ⟨moduleAlone, false⟩ "/a.mts" (some .commonJS)).value =
      .ok output ∧
      .transformed request ∈ (compile ⟨Bundler.echo.engine, {}⟩ ⟨moduleAlone, false⟩ "/a.mts" (some .commonJS)).trace ∧
      request.format = .module ∧ output.format = .module := by
  obtain ⟨succeeds, formats, alone⟩ := compile_moduleAlone
  cases compiled : (compile ⟨Bundler.echo.engine, {}⟩ ⟨moduleAlone, false⟩ "/a.mts" (some .commonJS)).value with
  | error e =>
    rw [compiled] at succeeds
    cases succeeds
  | ok output =>
    have some_request : OutputFormat.module ∈ _ := formats ▸ List.mem_singleton.mpr rfl
    obtain ⟨request, mem, same⟩ := List.mem_map.mp some_request
    have reported : request.format.reported? = some .module := by
      rw [same]
      rfl
    have asked := mem_transforms.mp mem
    refine ⟨output, request, rfl, asked, same, (compile_format_agrees_unless_left_open compiled asked reported).1 ?_⟩
    rintro ⟨config, governed, -⟩
    rw [governed] at alone
    cases alone

/-- A configuration that sets how modules are resolved and leaves their kind open. -/
def resolutionOnly : FileSystem :=
  ⟨⟨[(["p"], .directory), (["a.ts", "p"], .file []), (["tsconfig.json", "p"], .file (Text.Utf8.encode
    "\x7b\"files\":[\"a.ts\"],\"compilerOptions\":\x7b\"moduleResolution\":\"bundler\"\x7d\x7d"))]⟩, "/", rfl⟩

/-- Where the module kind is left open, a script is reported although the bundler was asked for a module. -/
theorem compile_resolutionOnly_format :
    (compile ⟨Bundler.echo.engine, {}⟩ ⟨resolutionOnly, false⟩ "/p/a.ts" none).value = .ok ⟨"", .commonJS⟩ ∧
      (transforms (compile ⟨Bundler.echo.engine, {}⟩ ⟨resolutionOnly, false⟩ "/p/a.ts" none).trace).map (·.format) =
        [.module] := by
  decide +kernel

end Pipeline
end ScriptLoader
