import ScriptLoader.LoaderOptions
import ScriptLoader.ModuleFormat
import ScriptLoader.Pipeline.References
import ScriptLoader.Project.Find
import ScriptLoader.SourceName

/-!
Compilation of one file to one script, stage by stage: find the configuration, build the projects it
refers to, make a program, emit, look at the diagnostics. Every call reads the files anew.
-/

set_option autoImplicit false
namespace ScriptLoader

structure CompileOutput where
  source : String
  format : ModuleFormat
  deriving DecidableEq, Repr

structure CompileError where
  stage : Stage
  file : String
  cause : Failure
  deriving DecidableEq, Repr

/-- A problem speaks for itself; other failures to make a program or to emit are told with the file. -/
def CompileError.message (cwd : String) (e : CompileError) : String :=
  match e.stage, e.cause with
  | .program, cause => "failed to create program for " ++ e.file ++ ": " ++ cause.message cwd
  | .emit, .problem p => p.message cwd
  | .emit, cause => "failed to emit " ++ e.file ++ ": " ++ cause.message cwd
  | _, cause => cause.message cwd

structure Pipeline where
  engine : Engine
  options : LoaderOptions

namespace Pipeline

structure Governing where
  config : Option Project.Config
  options : CompilerOptions

def Governing.configPath (g : Governing) : String := (g.config.map (·.path)).getD ""

def Governing.ofConfig (check : Bool) : Option Project.Config → Governing
  | none => ⟨none, CompilerOptions.defaults.normalize check⟩
  | some config => ⟨some config, config.options.normalize check⟩

def lookup (p : Pipeline) (fs : FileSystem) (file : String) (check : Bool) : Traced Governing := do
  let config ← (Project.find fs file p.options.defaults).relabel .log
  return .ofConfig check config

def notify (file : String) (stage : Stage) (status : Status) (failure : Option Failure) : Traced Unit :=
  Run.mark (.progress ⟨file, stage, status, failure⟩)

def stage {α : Type} (file : String) (stage : Stage) (work : Traced α) : Traced α := do
  notify file stage .working none
  let value ← work
  notify file stage .done none
  return value

/-- A stage that may fail. After a crash nothing is told any more. -/
def tryStage {α : Type} (file : String) (stage : Stage) (work : Traced (Except Failure α)) :
    Traced (Except CompileError α) := do
  notify file stage .working none
  match ← work with
  | .ok value =>
    notify file stage .done none
    return .ok value
  | .error (.crashed message) => return .error ⟨stage, file, .crashed message⟩
  | .error failure =>
    notify file stage .error (some failure)
    return .error ⟨stage, file, failure⟩

/-- Only scripts count, and of these only one is taken. -/
def receiver : Receiver := fun before artifact =>
  SourceName.isScript artifact.name && before.any fun earlier => SourceName.isScript earlier.name

def captured (offered : List Artifact) : Option Artifact :=
  offered.find? fun artifact => SourceName.isScript artifact.name

def decidingSource (file : String) (artifact : Artifact) : SourceFile :=
  match artifact.sources with
  | some source :: _ => source
  | _ => ⟨file, "", none⟩

/-- What the options say, else what the host asks for, else a script. -/
def artifactFormat (file : String) (o : CompilerOptions) (hint : Option ModuleFormat) (artifact : Artifact) :
    ModuleFormat :=
  let source := decidingSource file artifact
  ((ModuleFormat.infer source.fileName source.implied o).or hint).getD .commonJS

def blocking (diagnostics : List Diagnostic) : List Diagnostic :=
  Diagnostic.errorsExcept .sourceExtensionsWithEmit diagnostics

def noReferences : ReferenceBuilds := {}

def referencesStage (p : Pipeline) (setting : Setting) (file : String) (governing : Governing) :
    Traced (Except CompileError ReferenceBuilds) :=
  match governing.config with
  | none => pure (.ok noReferences)
  | some config =>
    if config.references.isEmpty then pure (.ok noReferences)
    else tryStage file .references (buildReferences p.engine setting config)

def programRequest (file : String) (governing : Governing) (graph : List Diagnostic) : ProgramRequest where
  rootNames := [file]
  options := some governing.options
  references := (governing.config.map (·.references)).getD []
  configDiagnostics := (governing.config.map (·.errors)).getD [] ++ graph

def refusal (file : String) (governing : Governing) : Problem :=
  { kind := .multipleOutputs, file := file, config := governing.configPath }

def programStage (p : Pipeline) (setting : Setting) (file : String) (governing : Governing)
    (graph : List Diagnostic) : Traced (Except CompileError Program) :=
  tryStage file .program do
    let request := programRequest file governing graph
    Run.mark (.askedProgram request)
    return (← p.engine.newProgram setting request).mapError (Failure.ofEngine (refusal file governing))

def emitStage (file : String) (governing : Governing) (program : Program) : Traced (Except CompileError Emission) :=
  tryStage file .emit do
    let emission ← program.emit receiver (program.sourceFile file)
    match emission.failure with
    | none => return .ok emission
    | some e => return .error (Failure.ofEngine (refusal file governing) e)

/-- All diagnostics of a compilation: those known before when checking, failed reference builds, those of emitting. -/
def diagnosticsOf (check : Bool) (program : Program) (file : String) (failed : List Diagnostic)
    (emission : Emission) : List Diagnostic :=
  (if check then program.preEmit (program.sourceFile file) else []) ++ (failed ++ emission.diagnostics)

def conclude (file : String) (governing : Governing) (hint : Option ModuleFormat) (diagnostics : List Diagnostic)
    (offered : List Artifact) : Except Failure CompileOutput :=
  if blocking diagnostics ≠ [] then
    .error (.problem ⟨.compilation, file, governing.configPath, blocking diagnostics⟩)
  else match captured offered with
    | none => .error (.problem ⟨.noOutput, file, governing.configPath, []⟩)
    | some artifact => .ok ⟨artifact.data, artifactFormat file governing.options hint artifact⟩

/-- Compiles a file; `hint` is the format the host asks for. -/
def compile (p : Pipeline) (setting : Setting) (file : String) (hint : Option ModuleFormat) :
    Traced (Except CompileError CompileOutput) := do
  let file := setting.fs.abs file
  let check := p.options.checkEnabled
  let governing ← stage file .config (p.lookup setting.fs file check)
  Run.mark (.log (.debug "pipeline" "compiling"
    [("file", .text file), ("config", .text governing.configPath), ("check", .flag check)]))
  match ← p.referencesStage setting file governing with
  | .error e => return .error e
  | .ok references =>
    match ← p.programStage setting file governing references.graph with
    | .error e => return .error e
    | .ok program =>
      match ← emitStage file governing program with
      | .error e => return .error e
      | .ok emission =>
        tryStage file .diagnose (pure (conclude file governing hint
          (diagnosticsOf check program file references.failed emission) emission.offered))

/-- The source that a specifier leads to from a file, if it leads to one that can be compiled. -/
def resolve (p : Pipeline) (setting : Setting) (specifier importer : String) : Traced (Option String) :=
  let importer := setting.fs.abs importer
  stage importer .resolve do
    let governing ← p.lookup setting.fs importer false
    Run.mark (.askedResolution specifier importer governing.options)
    let found := (← p.engine.resolveModule setting specifier importer governing.options).getD {}
    if SourceName.isSource found.fileName then return some found.fileName
    else
      Run.mark (.log (.debug "pipeline" "resolve declined"
        [("specifier", .text specifier), ("parent", .text importer), ("found", .text found.fileName)]))
      return none

end Pipeline
end ScriptLoader
