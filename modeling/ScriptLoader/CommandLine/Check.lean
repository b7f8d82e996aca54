import ScriptLoader.CommandLine.Session

/-! Checking many files: each is compiled on its own, and what fails is told in the end. -/

set_option autoImplicit false
namespace ScriptLoader.CommandLine

inductive DisplayMode where
  | auto
  | on
  | off
  deriving DecidableEq, Repr

def DisplayMode.ofText? (text : String) : Option DisplayMode :=
  match Text.trimBlank (Text.lowerAscii text) with
  | "" => some .auto
  | "auto" => some .auto
  | "on" => some .on
  | "off" => some .off
  | _ => none

/-- The files to check: those that are named, or else the sources of the project in the working directory. -/
def checkTargets (fs : FileSystem) (named : List String) : Work (Except CommandError (List String)) :=
  if named.isEmpty then do
    match ← perform ((Project.parse fs Project.configFileName).relabel .log) with
    | .error e => return .error (.noProject e)
    | .ok config =>
      let sources := config.fileNames.filter (!SourceName.isDeclaration ·)
      return if sources.isEmpty then .error (.noSources config.path) else .ok sources
  else pure (.ok (named.map fs.abs))

def compileAll (pipeline : Pipeline) (setting : Setting) :
    List String → Traced (List (Except CompileError CompileOutput))
  | [] => pure []
  | file :: rest => do
    let result ← pipeline.compile setting file none
    let results ← compileAll pipeline setting rest
    return result :: results

/-- How many files wait before the first one begins. Of `jobs` workers the one that takes the last free place
begins at once; those before it get their turns when every file has a worker. -/
def waiting (jobs : Nat) (files : List String) : Nat := min jobs files.length - 1

/-- Compiles files with a number of workers; the results are in the order of the files. -/
def compileWith (jobs : Nat) (pipeline : Pipeline) (setting : Setting) (files : List String) :
    Traced (List (Except CompileError CompileOutput)) := do
  let results ← compileAll pipeline setting (files.rotateLeft (waiting jobs files))
  return results.rotateRight (waiting jobs files)

/-- The number of workers that is asked for; without a positive one there is a single worker. -/
def jobsOf (arguments : Arguments) : Nat :=
  match (arguments.value? "jobs").map IntegerText.parse with
  | some (.ok jobs) => max jobs.toNat 1
  | _ => 1

def checkLine (label : String) (result : Except CompileError CompileOutput) : String :=
  Text.padRight 5 (if result.isOk then "ok" else "error") ++ " " ++ label ++ "\n"

def failureText (session : Session) (fs : FileSystem) (e : CompileError) : String :=
  match e.cause with
  | .problem p => session.problemText fs p ++ "\n"
  | _ => "error: " ++ e.message fs.cwd ++ "\n"

def errorsOf (results : List (Except CompileError CompileOutput)) : List CompileError :=
  results.filterMap fun
    | .ok _ => none
    | .error e => some e

def checkFiles (context : Context) (session : Session) (setting : Setting) (mode : DisplayMode) (jobs : Nat)
    (files : List String) : Work (Except CommandError Unit) := do
  let results ← perform (compileWith jobs (session.pipeline context) setting files)
  let labels := files.map (Diagnostic.displayPath setting.fs.cwd)
  if mode ≠ .on then write (String.join ((labels.zip results).map fun (label, result) => checkLine label result))
  let failed := errorsOf results
  tell (String.join (failed.map (failureText session setting.fs)))
  write (toString results.length ++ " files checked, " ++ toString failed.length ++ " failed\n")
  return if failed.isEmpty then .ok () else .error .reported

def check (context : Context) (arguments : Arguments) (session : Session) (setting : Setting) :
    Work (Except CommandError Unit) := do
  let display := arguments.text "ui" "auto"
  match DisplayMode.ofText? display with
  | none => return .error (.displayMode display)
  | some mode =>
    match ← checkTargets setting.fs arguments.words with
    | .error e => return .error e
    | .ok files => checkFiles context session setting mode (jobsOf arguments) files

end ScriptLoader.CommandLine
