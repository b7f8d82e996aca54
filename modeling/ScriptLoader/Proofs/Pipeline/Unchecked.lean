import ScriptLoader.Proofs.Options.TransformTexts
import ScriptLoader.Proofs.Pipeline.ReportedFormat
import ScriptLoader.Proofs.Project.Inheritance

/-!
Compiling with and without checking. The two differ in one option, which the bundler is never shown, and in
the diagnostics that count. So a compilation that succeeds with checking gives the same result without it,
after asking the bundler for the same.
-/

set_option autoImplicit false
namespace ScriptLoader

open Project

namespace CompilerOptions
variable {o : CompilerOptions}

/-- Checking shows in one flag. -/
theorem normalize_unchecked (o : CompilerOptions) (check : Bool) :
    o.normalize false = (o.normalize check).setFlag .noCheck (some true) := by
  simp only [normalize, setFlag, mk.injEq, true_and, and_true]
  funext f
  by_cases checks : f = .noCheck <;> simp [checks]

theorem WellFormed.normalize (formed : o.WellFormed) (check : Bool) : (o.normalize check).WellFormed :=
  ⟨formed.increasing, formed.other⟩

theorem WellFormed.setFlag (formed : o.WellFormed) (f : Flag) (value : Option Bool) : (o.setFlag f value).WellFormed :=
  ⟨formed.increasing, formed.other⟩

theorem value?_setFlag {f : Flag} {key : OptionKey} (other : key ≠ .flag f)
    (o : CompilerOptions) (value : Option Bool) :
    (o.setFlag f value).value? key = o.value? key := by
  cases key with
  | flag g =>
    have differs : g ≠ f := fun same => other (by rw [same])
    simp [value?, CompilerOptions.setFlag, differs]
  | _ => rfl

/-- A flag that the transformer does not read makes no difference to the text it is given. -/
theorem WellFormed.transformText_setFlag (formed : o.WellFormed) {f : Flag}
    (unread : transformNames.contains f.name = false) (value : Option Bool) :
    (o.setFlag f value).transformText = o.transformText := by
  have agree : ∀ name ∈ transformNames, (o.setFlag f value).toFields.get? name = o.toFields.get? name := by
    intro name read
    have other : OptionKey.ofName name ≠ .flag f := by
      intro same
      have own : OptionKey.ofName name ≠ .extra := by simp [same]
      have named := OptionKey.name_ofName own
      rw [same] at named
      rw [← named, OptionKey.name, ← List.contains_iff_mem, unread] at read
      cases read
    rw [get?_toFields, get?_toFields, value?_setFlag other]
    rfl
  rw [transformText, transformFields_congr formed.increasing (formed.setFlag f value).increasing agree, transformText]

end CompilerOptions

namespace Bundler

theorem readRoot_setFlag (fs : FileSystem) (o : CompilerOptions) (f : Flag) (value : Option Bool) (name : String) :
    readRoot fs (o.setFlag f value) name = readRoot fs o name := rfl

theorem emit_setFlag {bundler : Bundler} {setting : Setting} {o : CompilerOptions} (formed : o.WellFormed) {f : Flag}
    (unread : CompilerOptions.transformNames.contains f.name = false) (value : Option Bool) (receiver : Option Receiver)
    (file : Option SourceFile) :
    bundler.emit setting (o.setFlag f value) receiver file = bundler.emit setting o receiver file := by
  have formats : ∀ name implied, outputFormat name implied (o.setFlag f value) = outputFormat name implied o :=
    fun _ _ => rfl
  have requests : ∀ source format, transformRequest source (o.setFlag f value) format =
      transformRequest source o format := by
    intro source format
    simp only [transformRequest, formed.transformText_setFlag unread]
    rfl
  simp only [emit, formats, requests]

theorem newProgram_uncancelled {bundler : Bundler} {setting : Setting} {request : ProgramRequest} {program : Program}
    (made : (bundler.engine.newProgram setting request).value = .ok program) : setting.cancelled = false := by
  simp only [engine, newProgram] at made
  split at made
  · cases made
  · rename_i going
    exact Bool.eq_false_of_not_eq_true going

theorem exists_newProgram (bundler : Bundler) {setting : Setting} (going : setting.cancelled = false) (path : String)
    (governing : Pipeline.Governing) (graph : List Diagnostic) :
    ∃ program, (bundler.engine.newProgram setting (Pipeline.programRequest path governing graph)).value =
      .ok program := by
  simp only [engine, newProgram, Pipeline.programRequest, going]
  exact ⟨_, rfl⟩

theorem transforms_of_offered {bundler : Bundler} {setting : Setting} {o : CompilerOptions} {receiver : Option Receiver}
    {file : Option SourceFile} (some_offered : (bundler.emit setting o receiver file).value.offered ≠ []) :
    ∃ request, Pipeline.transforms (bundler.emit setting o receiver file).trace = [request] := by
  unfold emit at some_offered ⊢
  split at some_offered
  · exact absurd rfl some_offered
  · rename_i source
    split at some_offered
    · exact absurd rfl some_offered
    · rename_i going
      split at some_offered
      · exact absurd rfl some_offered
      · rename_i format chosen
        refine ⟨transformRequest source o format, ?_⟩
        simp only [if_neg going, Run.trace_bind, Run.trace_mark]
        by_cases clean : (bundler.transform (transformRequest source o format)).errors.isEmpty = true
        · rw [if_pos clean]
          rfl
        · rw [if_neg clean]
          rfl

end Bundler

namespace Pipeline

theorem transforms_append (before after : List Happening) :
    transforms (before ++ after) = transforms before ++ transforms after := List.filterMap_append

theorem transforms_eq_nil {trace : List Happening} (absent : ∀ request, .transformed request ∉ trace) :
    transforms trace = [] := by
  rw [List.eq_nil_iff_forall_not_mem]
  exact fun request mem => absent request (mem_transforms.mp mem)

theorem transforms_framed (file : String) (label : Stage) (work : List Happening) :
    transforms (framed file label work) = transforms work := by
  have start : transforms [.progress ⟨file, label, .working, none⟩] = [] := rfl
  have finish : transforms [.progress ⟨file, label, .done, none⟩] = [] := rfl
  rw [framed, List.cons_append, ← List.singleton_append, transforms_append, transforms_append, start, finish]
  simp

section
variable {bundler : Bundler} {options : LoaderOptions} {setting : Setting} {file : String}
  {hint : Option ModuleFormat} {references : ReferenceBuilds} {program : Program} {emission : Emission}
  {output : CompileOutput}

/-- All that the bundler is asked to transform it is asked while emitting. -/
theorem Completed.transforms_eq
    (completed : Completed ⟨bundler.engine, options⟩ setting file hint references program emission output) :
    transforms (compile ⟨bundler.engine, options⟩ setting file hint).trace =
      transforms (program.emit receiver (program.sourceFile (setting.fs.abs file))).trace := by
  have looked_up : transforms
      (lookup ⟨bundler.engine, options⟩ setting.fs (setting.fs.abs file) options.checkEnabled).trace = [] :=
    transforms_eq_nil fun request => by simp [lookup]
  have referred := transforms_eq_nil completed.not_transformed_of_references
  have told : ∀ entry more, transforms (.log entry :: more) = transforms more := fun _ _ => rfl
  have asked : ∀ request more, transforms (.askedProgram request :: more) = transforms more := fun _ _ => rfl
  rw [completed.trace]
  simp only [transforms_append, transforms_framed, looked_up, referred, compilingLog, told, asked,
    bundler.trace_newProgram, List.nil_append]
  exact List.append_nil _

end

/-- The configuration of a file does not depend on whether it is checked, and its options do in one flag. -/
theorem governing_unchecked (engine : Engine) {options unchecked : LoaderOptions} (fs : FileSystem) (file : String)
    (off : unchecked.checkEnabled = false) (same : unchecked.defaults = options.defaults) :
    (governing ⟨engine, unchecked⟩ fs file).config = (governing ⟨engine, options⟩ fs file).config ∧
      (governing ⟨engine, unchecked⟩ fs file).options =
        (governing ⟨engine, options⟩ fs file).options.setFlag .noCheck (some true) := by
  simp only [governing, lookup, Run.value_bind, Run.value_relabel, Run.value_pure, same, off]
  cases (find fs (fs.abs file) options.defaults).value with
  | none => exact ⟨rfl, CompilerOptions.normalize_unchecked _ _⟩
  | some config => exact ⟨rfl, CompilerOptions.normalize_unchecked _ _⟩

theorem wellFormed_governing (p : Pipeline) (fs : FileSystem) (file : String) :
    (p.governing fs file).options.WellFormed := by
  simp only [governing, lookup, Run.value_bind, Run.value_relabel, Run.value_pure]
  cases found : (find fs (fs.abs file) p.options.defaults).value with
  | none =>
    have formed : CompilerOptions.defaults.WellFormed := (CompilerOptions.wellFormed_empty.setFlag _ _).setFlag _ _
    exact formed.normalize _
  | some config =>
    obtain ⟨path, parsed⟩ := find_eq_some found
    exact (wellFormed_of_parse parsed).normalize _

theorem referencesStage_congr {engine : Engine} {options options' : LoaderOptions} {setting : Setting} {file : String}
    {governing governing' : Governing} (same : governing.config = governing'.config) :
    referencesStage ⟨engine, options⟩ setting file governing =
      referencesStage ⟨engine, options'⟩ setting file governing' := by
  rw [referencesStage, referencesStage, same]

theorem artifactFormat_setFlag (file : String) (o : CompilerOptions) (f : Flag) (value : Option Bool)
    (hint : Option ModuleFormat) (artifact : Artifact) :
    artifactFormat file (o.setFlag f value) hint artifact = artifactFormat file o hint artifact := rfl

theorem conclude_eq_ok {file : String} {governing : Governing} {hint : Option ModuleFormat}
    {diagnostics : List Diagnostic} {offered : List Artifact} {output : CompileOutput} :
    conclude file governing hint diagnostics offered = .ok output ↔
      blocking diagnostics = [] ∧ ∃ artifact, captured offered = some artifact ∧
        output = ⟨artifact.data, artifactFormat file governing.options hint artifact⟩ := by
  rw [conclude]
  by_cases clear : blocking diagnostics = []
  · cases captured offered <;> simp [clear, eq_comm]
  · simp [clear]

theorem blocking_eq_nil_of_sublist {few many : List Diagnostic} (fewer : few.Sublist many)
    (clear : blocking many = []) :
    blocking few = [] := by
  rw [blocking, Diagnostic.errorsExcept] at clear ⊢
  exact List.sublist_nil.mp (clear ▸ fewer.filter _)

/-- A compilation that goes through does so without checking as well, by the same way up to the diagnostics. -/
theorem Completed.unchecked {bundler : Bundler} {options unchecked : LoaderOptions} {setting : Setting} {file : String}
    {hint : Option ModuleFormat} {references : ReferenceBuilds} {program : Program} {emission : Emission}
    {output : CompileOutput} (off : unchecked.checkEnabled = false) (same : unchecked.defaults = options.defaults)
    (completed : Completed ⟨bundler.engine, options⟩ setting file hint references program emission output) :
    ∃ program', Completed ⟨bundler.engine, unchecked⟩ setting file hint references program' emission output ∧
      program'.emit receiver (program'.sourceFile (setting.fs.abs file)) =
        program.emit receiver (program.sourceFile (setting.fs.abs file)) := by
  obtain ⟨config, flag⟩ := governing_unchecked bundler.engine setting.fs file off same
  have formed := wellFormed_governing ⟨bundler.engine, options⟩ setting.fs file
  obtain ⟨program', made⟩ := bundler.exists_newProgram (Bundler.newProgram_uncancelled completed.made)
    (setting.fs.abs file) (governing ⟨bundler.engine, unchecked⟩ setting.fs file) references.graph
  obtain ⟨reads, emits⟩ := Bundler.newProgram_eq_ok completed.made
  obtain ⟨reads', emits'⟩ := Bundler.newProgram_eq_ok made
  -- The root file is read, and its module kind decided, without a look at the flag.
  have same_source : program'.sourceFile (setting.fs.abs file) = program.sourceFile (setting.fs.abs file) := by
    rw [reads, reads', flag, Bundler.readRoot_setFlag]
  have same_emit : program'.emit receiver (program'.sourceFile (setting.fs.abs file)) =
      program.emit receiver (program.sourceFile (setting.fs.abs file)) := by
    rw [emits, emits', same_source, flag, Bundler.emit_setFlag formed (by decide)]
  refine ⟨program', ⟨?_, made, ?_, completed.unfailing, ?_⟩, same_emit⟩
  · rw [← completed.referred, referencesStage_congr config]
  · rw [same_emit, completed.emitted]
  · obtain ⟨clear, artifact, taken, same_output⟩ := conclude_eq_ok.mp completed.concluded
    refine conclude_eq_ok.mpr ⟨blocking_eq_nil_of_sublist ?_ clear, artifact, taken, ?_⟩
    · rw [diagnosticsOf, diagnosticsOf, off]
      exact List.sublist_append_right _ _
    · rw [same_output, flag, artifactFormat_setFlag]

/-- Checking only adds failures: what compiles, with checking or not, compiles without it to the same source and format,
and the bundler is asked in both cases to transform one file, in the same words. -/
theorem compile_unchecked_agrees {bundler : Bundler} {options unchecked : LoaderOptions} {setting : Setting}
    {file : String} {hint : Option ModuleFormat} {output : CompileOutput}
    (off : unchecked.checkEnabled = false) (same : unchecked.defaults = options.defaults)
    (compiled : (compile ⟨bundler.engine, options⟩ setting file hint).value = .ok output) :
    (compile ⟨bundler.engine, unchecked⟩ setting file hint).value = .ok output ∧
      ∃ request, transforms (compile ⟨bundler.engine, options⟩ setting file hint).trace = [request] ∧
        transforms (compile ⟨bundler.engine, unchecked⟩ setting file hint).trace = [request] := by
  obtain ⟨references, program, emission, completed⟩ := completed_of_compile compiled
  obtain ⟨program', completed', same_emit⟩ := completed.unchecked off same
  refine ⟨completed'.value_compile, ?_⟩
  rw [completed.transforms_eq, completed'.transforms_eq, same_emit]
  obtain ⟨-, artifact, taken, -⟩ := conclude_eq_ok.mp completed.concluded
  have some_offered : emission.offered ≠ [] := by
    rintro nothing
    rw [nothing] at taken
    cases taken
  obtain ⟨-, emits⟩ := Bundler.newProgram_eq_ok completed.made
  rw [← completed.emitted, emits] at some_offered
  rw [emits]
  obtain ⟨request, asked⟩ := Bundler.transforms_of_offered some_offered
  exact ⟨request, asked, asked⟩

/-- A file whose project refers to others compiles without checking as it does with it. -/
theorem compile_chainOfProjects_unchecked :
    let options : LoaderOptions := {}
    let unchecked : LoaderOptions := { check := some false }
    let setting : Setting := ⟨chainOfProjects, false⟩
    options.checkEnabled = true ∧
      (compile ⟨Bundler.echo.engine, options⟩ setting "/p/a.ts" none).value = .ok ⟨"", .commonJS⟩ ∧
      (compile ⟨Bundler.echo.engine, unchecked⟩ setting "/p/a.ts" none).value = .ok ⟨"", .commonJS⟩ ∧
      ∃ request, transforms (compile ⟨Bundler.echo.engine, options⟩ setting "/p/a.ts" none).trace = [request] ∧
        transforms (compile ⟨Bundler.echo.engine, unchecked⟩ setting "/p/a.ts" none).trace = [request] := by
  intro options unchecked setting
  have off : unchecked.checkEnabled = false := rfl
  have same : unchecked.defaults = options.defaults := rfl
  have compiled : (compile ⟨Bundler.echo.engine, options⟩ setting "/p/a.ts" none).value = .ok ⟨"", .commonJS⟩ :=
    compile_echo.1
  exact ⟨rfl, compiled, compile_unchecked_agrees off same compiled⟩

end Pipeline
end ScriptLoader
