import ScriptLoader.Bundler.Basic
import ScriptLoader.Log
import ScriptLoader.Pipeline.Progress
import ScriptLoader.Project.Config
import ScriptLoader.Run

/-!
The engine that compiles: everything the loader asks of a compiler. An engine makes a program of root
files, emits the output of a file piece by piece to a receiver that may refuse a piece, resolves module
specifiers and builds whole projects.
-/

set_option autoImplicit false
namespace ScriptLoader

/-- A root file as the engine sees it. The implied kind is set where each file carries its own module kind. -/
structure SourceFile where
  fileName : String
  text : String
  implied : Option ModuleKind
  deriving DecidableEq, Repr

structure Artifact where
  name : String
  data : String
  sources : List (Option SourceFile)
  deriving DecidableEq, Repr

/-- Decides from the artifacts offered before whether the next one is refused. -/
abbrev Receiver := List Artifact → Artifact → Bool

structure ProgramRequest where
  rootNames : List String
  options : Option CompilerOptions
  references : List Project.Reference
  configDiagnostics : List Diagnostic

/-- What came of emitting a file: the artifacts offered, refused ones included, in order. -/
structure Emission where
  offered : List Artifact := []
  diagnostics : List Diagnostic := []
  failure : Option EngineError := none

structure Resolution where
  fileName : String := ""
  extension : String := ""
  isExternalLibrary : Bool := false
  deriving DecidableEq, Repr

inductive Happening where
  | log (entry : LogEntry)
  | progress (event : ProgressEvent)
  | askedProgram (request : ProgramRequest)
  | askedResolution (specifier importer : String) (options : CompilerOptions)
  | askedBuild (config : Project.Config)
  | noted (text : String)
  | transformed (request : TransformRequest)
  | imported (request : ImportRequest)
  | built (request : BuildRequest)

structure Setting where
  fs : FileSystem
  cancelled : Bool := false

abbrev Traced (α : Type) := Run Happening α

structure Program where
  sourceFile : String → Option SourceFile
  preEmit : Option SourceFile → List Diagnostic
  emit : Receiver → Option SourceFile → Traced Emission

structure Engine where
  newProgram : Setting → ProgramRequest → Traced (Except EngineError Program)
  resolveModule : Setting → String → String → CompilerOptions → Traced (Option Resolution)
  buildProject : Setting → Project.Config → Traced (Except EngineError Unit)

def Receiver.offerAll (receiver : Receiver) : List Artifact → List Artifact → List Artifact × Bool
  | before, [] => (before, false)
  | before, artifact :: rest =>
    if receiver before artifact then (before ++ [artifact], true)
    else offerAll receiver (before ++ [artifact]) rest

end ScriptLoader
