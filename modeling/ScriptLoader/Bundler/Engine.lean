import ScriptLoader.Engine.Basic
import ScriptLoader.ModuleFormat
import ScriptLoader.Options.TransformText
import ScriptLoader.Options.Validate
import ScriptLoader.SourceName

/-!
An engine on top of a bundler. The bundler strips types and does not check them, so before emitting only
problems of the configuration and the options are known.
-/

set_option autoImplicit false
namespace ScriptLoader

namespace OutputTarget

/-- The language level of output; what has no level of its own is left as it is. -/
def ofTarget (target : ScriptTarget) : OutputTarget :=
  if target = .es3 ∨ target = .es5 then .es5
  else if target = .es2015 then .es2015
  else if target = .es2016 then .es2016
  else if target = .es2017 then .es2017
  else if target = .es2018 then .es2018
  else if target = .es2019 then .es2019
  else if target = .es2020 then .es2020
  else if target = .es2021 then .es2021
  else if target = .es2022 then .es2022
  else if target = .es2023 then .es2023
  else if target = .es2024 then .es2024
  else .esNext

end OutputTarget

namespace Bundler

def unsupported (kind : ModuleKind) : String :=
  "module kind '" ++ kind.word ++ "' is not supported by this engine"

/-- The format asked for a file's output. Kinds that decide file by file give a script unless the file says
otherwise; some kinds are not supported. -/
def outputFormat (fileName : String) (implied : Option ModuleKind) (o : CompilerOptions) :
    Except ModuleKind OutputFormat :=
  let kind := o.effectiveModule
  if kind = .preserve ∨ kind = .unset then .ok .unchanged
  else if kind.isES then .ok .module
  else if kind = .commonJS then .ok .commonJS
  else if kind.isNode then
    if ModuleFormat.infer fileName implied { moduleKind := some kind } = some .module then .ok .module
    else .ok .commonJS
  else .error kind

def sourceSyntax (fileName : String) : SourceSyntax :=
  if Path.ext fileName = ".tsx" then .withMarkup else .plain

/-- A message of the bundler as a diagnostic; a message without a file belongs to the given one. -/
def diagnostic (category : Category) (file : String) (message : BundlerMessage) : Diagnostic :=
  match message.place with
  | none => { category := category, code := .none, message := message.text, file := file }
  | some place =>
    { category := category
      code := .none
      message := message.text
      file := if place.file = "" ∨ place.file = "<stdin>" then file else place.file
      line := place.line
      column := place.column + 1
      length := place.length
      lineText := place.lineText }

def readRoot (fs : FileSystem) (o : CompilerOptions) (name : String) : Option SourceFile :=
  match fs.read name with
  | .error _ => none
  | .ok content =>
    some
      { fileName := name
        text := Text.Utf8.decode content
        implied := if o.effectiveModule.isNode then some (ModuleFormat.implied fs name) else none }

def transformRequest (file : SourceFile) (o : CompilerOptions) (format : OutputFormat) : TransformRequest where
  text := file.text
  file := file.fileName
  format := format
  target := .ofTarget o.effectiveTarget
  sourceSyntax := sourceSyntax file.fileName
  options := o.transformText

def offer (receiver : Option Receiver) (artifact : Artifact) : Emission :=
  match receiver with
  | none => {}
  | some receiver =>
    { offered := [artifact], failure := if receiver [] artifact then some .refused else none }

def emit (bundler : Bundler) (setting : Setting) (o : CompilerOptions) (receiver : Option Receiver)
    (file : Option SourceFile) : Traced Emission :=
  match file with
  | none => pure {}
  | some file =>
    if setting.cancelled then pure { failure := some .cancelled }
    else match outputFormat file.fileName file.implied o with
      | .error kind =>
        pure { diagnostics := [(Diagnostic.ofError .none (unsupported kind)).inFile file.fileName] }
      | .ok format => do
        let request := transformRequest file o format
        Run.mark (.transformed request)
        let answer := bundler.transform request
        let diagnostics := answer.errors.map (diagnostic .error file.fileName) ++
          answer.warnings.map (diagnostic .warning file.fileName)
        if answer.errors.isEmpty then
          return { offer receiver ⟨SourceName.outputName file.fileName, answer.code, [some file]⟩ with
            diagnostics := diagnostics }
        else
          Run.mark (.log (.debug "esbuild" "transform failed"
            [("file", .text file.fileName), ("errors", .number answer.errors.length)]))
          return { diagnostics := diagnostics }

def preEmit (fs : FileSystem) (request : ProgramRequest) (o : CompilerOptions) : List Diagnostic :=
  request.configDiagnostics ++
    (request.rootNames.filter fun name => (readRoot fs o name).isNone).map Project.fileNotFound ++
    o.validate

/-- Makes a program of root files; files that cannot be read are missing in it. -/
def newProgram (bundler : Bundler) (setting : Setting) (request : ProgramRequest) :
    Traced (Except EngineError Program) :=
  if setting.cancelled then pure (.error .cancelled)
  else match request.options with
    | none => pure (.error (.failed "esbuild: program options are required"))
    | some o =>
      pure (.ok
        { sourceFile := fun name =>
            if request.rootNames.contains name then readRoot setting.fs o name else none
          preEmit := fun _ => preEmit setting.fs request o
          emit := fun receiver => bundler.emit setting o (some receiver) })

def resolveExtensions : List String :=
  [".ts", ".tsx", ".mts", ".cts", ".js", ".jsx", ".mjs", ".cjs", ".json"]

def importRequest (specifier importer : String) (o : CompilerOptions) : ImportRequest where
  specifier := specifier
  contents := "import " ++ Text.quoted specifier ++ ";\n"
  dir := Path.dir importer
  importer := importer
  extensions := resolveExtensions
  options := o.transformText

def resolution (path : String) : Resolution where
  fileName := path
  extension := SourceName.markedExtension path
  isExternalLibrary := Text.contains "/node_modules/".toList path.toList

def resolveModule (bundler : Bundler) (setting : Setting) (specifier importer : String) (o : CompilerOptions) :
    Traced (Option Resolution) :=
  if setting.cancelled then pure none
  else do
    let request := importRequest specifier importer o
    Run.mark (.imported request)
    let answer := bundler.resolve request
    match answer.errors with
    | [] => pure ()
    | first :: _ =>
      Run.mark (.log (.debug "esbuild" "resolve: build failed"
        [("specifier", .text specifier), ("text", .text first.text)]))
    return answer.file?.map resolution

def buildEntries (config : Project.Config) : List String :=
  config.fileNames.filter fun name => !SourceName.hasDeclarationMark name

/-- The format of a project's output. It is one for all files: for kinds that decide file by file, that of a
file in the project's directory. -/
def buildFormat (fs : FileSystem) (dir : String) (o : CompilerOptions) : OutputFormat :=
  let kind := o.effectiveModule
  if kind = .commonJS then .commonJS
  else if kind.isNode && ModuleFormat.implied fs (Path.join [dir, "index.ts"]) == .commonJS then .commonJS
  else .module

def buildDir (config : Project.Config) (o : CompilerOptions) (option : PathOption) : String :=
  match o.path option with
  | some dir => if dir = "" then config.dir else dir
  | none => config.dir

def buildRequest (fs : FileSystem) (config : Project.Config) : BuildRequest :=
  let o := config.options.normalize false
  { entries := buildEntries config
    outDir := buildDir config o .outDir
    outBase := buildDir config o .rootDir
    config := config.path
    format := buildFormat fs config.dir o
    target := .ofTarget o.effectiveTarget }

/-- Builds a project; one without sources needs no build. -/
def buildProject (bundler : Bundler) (setting : Setting) (config : Project.Config) :
    Traced (Except EngineError Unit) :=
  if setting.cancelled then pure (.error .cancelled)
  else if buildEntries config = [] then pure (.ok ())
  else do
    let request := buildRequest setting.fs config
    Run.mark (.built request)
    let errors := bundler.build request
    if errors.isEmpty then
      Run.mark (.log (.debug "esbuild" "project built"
        [("config", .text config.path), ("files", .number request.entries.length)]))
      return .ok ()
    else
      return .error (.failed ("build " ++ config.path ++ ":\n" ++
        Diagnostic.format {} (errors.map (diagnostic .error config.path))))

def engine (bundler : Bundler) : Engine where
  newProgram := bundler.newProgram
  resolveModule := bundler.resolveModule
  buildProject := bundler.buildProject

end Bundler
end ScriptLoader
