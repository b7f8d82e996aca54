import ScriptLoader.Proofs.Bundler.ProjectFormat
import ScriptLoader.Proofs.FileNames
import ScriptLoader.Proofs.Pipeline.Unchecked

/-!
The ways in which a compilation by the bundler fails. The bundler's output always counts as a script, and where there is
no output there is an error that says so, except for a file that cannot be read: that is only known before emitting.
-/

set_option autoImplicit false
namespace ScriptLoader

open Project Relation

namespace Pipeline

theorem Found.Complete.mem_due_iff {fs : FileSystem} {root : String} {found : Found} (complete : found.Complete fs root)
    {config : Config} :
    config ∈ found.due root ↔ Due fs root config.path ∧ (parse fs config.path).value = .ok config := by
  constructor
  · intro mem
    exact ⟨complete.mem_due.mp (List.mem_map_of_mem mem), complete.parse_of_mem_due mem⟩
  · rintro ⟨due, parsed⟩
    obtain ⟨held, mem, same⟩ := List.mem_map.mp (complete.mem_due.mpr due)
    have again := complete.parse_of_mem_due mem
    rw [same, parsed] at again
    cases again
    exact mem

theorem not_due_of_references_eq_nil {fs : FileSystem} {file : String} {root : Config}
    (parsed : (parse fs file).value = .ok root) (no_references : root.references = []) (path : String) :
    ¬Due fs root.path path := by
  rintro ⟨reached, -, other, -⟩
  rcases reached.cases_head with same | ⟨next, refers, -⟩
  · exact other same.symm
  · exact not_refers_of_references_eq_nil parsed no_references next refers

theorem blocking_append (before after : List Diagnostic) :
    blocking (before ++ after) = blocking before ++ blocking after := List.filter_append before after

theorem mem_blocking {d : Diagnostic} {diagnostics : List Diagnostic} :
    d ∈ blocking diagnostics ↔ d ∈ diagnostics ∧ d.isError = true ∧ d.code ≠ .sourceExtensionsWithEmit := by
  simp [blocking, Diagnostic.errorsExcept]

end Pipeline

namespace Bundler
open Pipeline

/-- The references of a configuration lead to a project with sources, and the bundler fails to build it. -/
def FailsReference (bundler : Bundler) (fs : FileSystem) (root : Config) : Prop :=
  ∃ config, Due fs root.path config.path ∧ (parse fs config.path).value = .ok config ∧
    buildEntries config ≠ [] ∧ bundler.build (buildRequest fs config) ≠ []

section
variable (bundler : Bundler) {setting : Setting} (going : setting.cancelled = false)
include going

theorem buildFailure_eq_none_iff (root : String) (config : Config) :
    buildFailure bundler.engine setting root config = none ↔
      (buildEntries config ≠ [] → bundler.build (buildRequest setting.fs config) = []) := by
  have built : buildFailure bundler.engine setting root config = none ↔
      (bundler.buildProject setting config).value = .ok () := by
    refine ⟨buildFailure_eq_none, fun done => ?_⟩
    rw [buildFailure, engine, done]
  rw [built]
  rcases bundler.buildProject_cases going config with ⟨no_sources, -, done⟩ | ⟨some_source, -, done⟩
  · simp [no_sources, done]
  · simp [some_source, done]

theorem failures_eq_nil_iff {root : Config} {found : Found} (complete : found.Complete setting.fs root.path) :
    (found.due root.path).filterMap (buildFailure bundler.engine setting root.path) = [] ↔
      ¬bundler.FailsReference setting.fs root := by
  rw [List.filterMap_eq_nil_iff]
  constructor
  · rintro unfailing ⟨config, due, parsed, some_source, failed⟩
    have none_failed := unfailing config (complete.mem_due_iff.mpr ⟨due, parsed⟩)
    exact failed ((bundler.buildFailure_eq_none_iff going _ _).mp none_failed some_source)
  · intro unfailing config mem
    obtain ⟨due, parsed⟩ := complete.mem_due_iff.mp mem
    rw [bundler.buildFailure_eq_none_iff going]
    intro some_source
    by_contra failed
    exact unfailing ⟨config, due, parsed, some_source, failed⟩

theorem exists_references (options : LoaderOptions) (path : String) {governing : Governing}
    (parsed : ∀ root, governing.config = some root → ∃ file, (parse setting.fs file).value = .ok root) :
    ∃ references, (referencesStage ⟨bundler.engine, options⟩ setting path governing).value = .ok references ∧
      blocking references.failed = references.failed ∧
      (references.failed = [] ↔ ∀ root, governing.config = some root → ¬bundler.FailsReference setting.fs root) := by
  cases governed : governing.config with
  | none => exact ⟨noReferences, by rw [referencesStage, governed]; rfl, rfl, by simp [noReferences]⟩
  | some root =>
    obtain ⟨file, read⟩ := parsed root governed
    simp only [referencesStage, governed, Option.some.injEq, forall_eq']
    split
    · rename_i no_references
      refine ⟨noReferences, rfl, rfl, iff_of_true rfl ?_⟩
      rintro ⟨config, due, -⟩
      exact not_due_of_references_eq_nil read (List.isEmpty_iff.mp no_references) _ due
    · obtain ⟨references, referred⟩ := buildReferences_of_going bundler.engine read going
      refine ⟨references, by rw [value_tryStage, referred, mapError_ok], ?_⟩
      obtain ⟨found, -, complete, -, -, rfl⟩ := buildReferences_eq_ok read referred
      refine ⟨List.filter_eq_self.mpr ?_, bundler.failures_eq_nil_iff going complete⟩
      intro d mem
      obtain ⟨error, code, -⟩ := of_mem_failures mem
      have other : d.code ≠ .sourceExtensionsWithEmit := by
        intro same
        rw [same] at code
        cases code
      simp [Diagnostic.isError, error, other]

/-- A file that was read gives one script, or an error that tells why it gives none. -/
theorem emit_cases (o : CompilerOptions) (source : SourceFile) :
    let emission := (bundler.emit setting o (some receiver) (some source)).value
    emission.failure = none ∧
      ((∃ artifact, captured emission.offered = some artifact) ∨
        ∃ d ∈ emission.diagnostics, d.isError = true ∧ d.code = .none) := by
  intro emission
  unfold emission emit
  dsimp only
  rw [going, if_neg Bool.false_ne_true]
  split
  · exact ⟨rfl, .inr ⟨_, List.mem_singleton.mpr rfl, rfl, rfl⟩⟩
  · rename_i format chosen
    rw [Run.value_bind]
    split
    · -- The receiver takes the first script, and the output of any source is called like one.
      have script := SourceName.isScript_outputName source.fileName
      refine ⟨by simp [offer, receiver], .inl ⟨_, List.find?_cons_of_pos script⟩⟩
    · rename_i failed
      obtain ⟨first, rest, errors⟩ := List.exists_cons_of_ne_nil (mt List.isEmpty_iff.mpr failed)
      refine ⟨rfl, .inr ⟨diagnostic .error source.fileName first, ?_, ?_⟩⟩
      · simp [errors]
      · unfold diagnostic
        split <;> exact ⟨rfl, rfl⟩

end

theorem readRoot_eq_none {fs : FileSystem} {o : CompilerOptions} {name : String} :
    readRoot fs o name = none ↔ ∀ content, fs.read name ≠ .ok content := by
  unfold readRoot
  cases fs.read name <;> simp

theorem missing_mem_preEmit {bundler : Bundler} {setting : Setting} {path : String} {governing : Governing}
    {graph : List Diagnostic} {program : Program}
    (made : (bundler.engine.newProgram setting (programRequest path governing graph)).value = .ok program)
    (unread : readRoot setting.fs governing.options path = none) (source : Option SourceFile) :
    fileNotFound path ∈ program.preEmit source := by
  have known : program.preEmit source = preEmit setting.fs (programRequest path governing graph) governing.options := by
    simp only [engine, newProgram, programRequest] at made
    split at made
    · cases made
    · cases made
      rfl
  rw [known, preEmit, List.mem_append, List.mem_append, programRequest]
  exact .inl (.inr (List.mem_map.mpr ⟨path, by simp [unread], rfl⟩))

/-- The stages up to emitting come to their end, and only an unread file that nothing tells of gives neither a
script nor an error. -/
theorem exists_conclude (bundler : Bundler) (options : LoaderOptions) {setting : Setting}
    (going : setting.cancelled = false) (file : String) (hint : Option ModuleFormat) :
    let p : Pipeline := ⟨bundler.engine, options⟩
    let path := setting.fs.abs file
    let governing := p.governing setting.fs file
    ∃ diagnostics offered,
      (p.compile setting file hint).value =
        (conclude path governing hint diagnostics offered).mapError (CompileError.mk .diagnose path) ∧
      (blocking diagnostics = [] ∧ captured offered = none ↔
        (∀ content, setting.fs.read path ≠ .ok content) ∧ options.checkEnabled = false ∧
          ∀ root, governing.config = some root → ¬bundler.FailsReference setting.fs root) := by
  intro p path governing
  obtain ⟨references, referred, counted, all_built⟩ :=
    bundler.exists_references going options path fun root (governed : governing.config = some root) =>
      governing_parsed governed
  obtain ⟨program, made⟩ := bundler.exists_newProgram going path governing references.graph
  obtain ⟨read, emit⟩ := newProgram_eq_ok made
  rw [← readRoot_eq_none, ← all_built]
  cases found : readRoot setting.fs governing.options path with
  | none =>
    rw [found] at read
    have emitted : (program.emit receiver (program.sourceFile path)).value = {} := by
      rw [emit, read]
      rfl
    refine ⟨_, _, value_compile_of_unfailing hint referred made (by rw [emitted]), ?_⟩
    rw [emitted]
    simp only [diagnosticsOf, List.append_nil, blocking_append, counted, List.append_eq_nil_iff, captured,
      List.find?_nil, and_true, true_and]
    refine and_congr_left fun _ => ?_
    cases checked : options.checkEnabled with
    | false => exact iff_of_true rfl rfl
    | true =>
      -- Before emitting it is known that the file is missing.
      have missing := missing_mem_preEmit made found (program.sourceFile path)
      have code : Code.fileNotFound ≠ .sourceExtensionsWithEmit := by decide
      exact iff_of_false (List.ne_nil_of_mem (mem_blocking.mpr ⟨missing, rfl, code⟩)) (by decide)
  | some source =>
    rw [found] at read
    obtain ⟨unfailing, cases⟩ := bundler.emit_cases going governing.options source
    rw [← emit, ← read] at unfailing cases
    refine ⟨_, _, value_compile_of_unfailing hint referred made unfailing, iff_of_false ?_ (by simp)⟩
    rintro ⟨nothing_blocks, no_script⟩
    rcases cases with ⟨artifact, script⟩ | ⟨d, mem, error, code⟩
    · rw [no_script] at script
      cases script
    · have told : d ∈ diagnosticsOf options.checkEnabled program path references.failed
          (program.emit receiver (program.sourceFile path)).value :=
        List.mem_append_right _ (List.mem_append_right _ mem)
      have blocks := mem_blocking.mpr ⟨told, error, by rw [code]; decide⟩
      rw [nothing_blocks] at blocks
      cases blocks

/-- A compilation that is not called off fails in two ways. There is no output exactly when the file cannot be
read, nothing is checked and no build of a reference fails; any other failure is told by its errors, of which
there is at least one. -/
theorem compile_gives_nothing_iff_or_errors (bundler : Bundler) (options : LoaderOptions)
    (fs : FileSystem) (file : String) (hint : Option ModuleFormat) :
    let p : Pipeline := ⟨bundler.engine, options⟩
    let path := fs.abs file
    let governing := p.governing fs file
    let result := (p.compile ⟨fs, false⟩ file hint).value
    let nothing : CompileError := ⟨.diagnose, path, .problem ⟨.noOutput, path, governing.configPath, []⟩⟩
    (result = .error nothing ↔
      (∀ content, fs.read path ≠ .ok content) ∧ options.checkEnabled = false ∧
        ∀ root, governing.config = some root → ¬bundler.FailsReference fs root) ∧
    ∀ e, result = .error e → e = nothing ∨
      ∃ errors, errors ≠ [] ∧ (∀ d ∈ errors, d.category = .error) ∧
        e = ⟨.diagnose, path, .problem ⟨.compilation, path, governing.configPath, errors⟩⟩ := by
  intro p path governing result nothing
  have going : (Setting.mk fs false).cancelled = false := rfl
  obtain ⟨diagnostics, offered, concluded, silent⟩ := bundler.exists_conclude options going file hint
  change result = _ at concluded
  rw [← silent, concluded, conclude]
  by_cases clear : blocking diagnostics = []
  · rw [if_neg (not_not_intro clear)]
    cases captured offered with
    | none =>
      refine ⟨iff_of_true rfl ⟨clear, rfl⟩, fun e failed => .inl ?_⟩
      cases failed
      rfl
    | some artifact => simp [mapError_ok]
  · rw [if_pos clear]
    refine ⟨iff_of_false ?_ fun silent => clear silent.1, fun e failed => .inr ⟨blocking diagnostics, clear, ?_, ?_⟩⟩
    · simp [mapError_error, nothing]
    · exact fun d mem => of_decide_eq_true (mem_blocking.mp mem).2.1
    · cases failed
      rfl

example :
    (compile ⟨Bundler.echo.engine, { check := some false }⟩ ⟨⟨.empty, "/f", rfl⟩, false⟩ "/a.ts" none).value =
      .error ⟨.diagnose, "/a.ts", .problem ⟨.noOutput, "/a.ts", "", []⟩⟩ := rfl

end Bundler
end ScriptLoader
