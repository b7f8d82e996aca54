import ScriptLoader.Diagnostic.Json
import ScriptLoader.Engine.Basic
import ScriptLoader.ModuleFormat

/-!
An engine that answers from a script: which artifacts it offers, which diagnostics it has and where it
fails. It stands in for a compiler where only the behaviour around it matters.
-/

set_option autoImplicit false
namespace ScriptLoader.Engine
open Json.Access

/-- A root file; its implied kind is given by name, or is the one that its place implies. -/
def scriptedSource (script : Json) (fs : FileSystem) (name : String) : Option SourceFile :=
  if bool script "no_source" then none
  else some ⟨name, "", match str script "implied" with
    | "" => none
    | "auto" => some (ModuleFormat.implied fs name)
    | word => (ModuleKind.ofWord word).toOption⟩

def scriptedArtifact (root : String) (source : Option SourceFile) (write : Json) : Artifact where
  name := if str write "name" ≠ "" then str write "name" else Path.dropExt root ++ str write "ext"
  data := str write "data"
  sources :=
    if bool write "no_sources" then []
    else if bool write "nil_source" then [none]
    else if str write "source" ≠ "" then [some ⟨str write "source", "", none⟩]
    else [source]

/-- Offers artifact after artifact and stops at a refusal, unless the script says to go on. -/
def offers (receiver : Receiver) (root : String) (source : Option SourceFile) :
    List Artifact → List Json → List Artifact × Bool
  | before, [] => (before, false)
  | before, write :: rest =>
    let artifact := scriptedArtifact root source write
    if receiver before artifact && !bool write "ignore_write_error" then (before ++ [artifact], true)
    else offers receiver root source (before ++ [artifact]) rest

def scriptedProgram (script : Json) (fs : FileSystem) (request : ProgramRequest) : Program where
  sourceFile := scriptedSource script fs
  preEmit _ := (if bool script "drop_config_diags" then [] else request.configDiagnostics) ++
    (list script "pre_diags").map .ofJson
  emit receiver source :=
    let (offered, refused) := offers receiver (request.rootNames.headD "") source [] (list script "writes")
    let emitError := str script "emit_error"
    pure
      { offered := offered
        diagnostics := (list script "emit_diags").map .ofJson
        failure := if refused then some .refused
          else if emitError ≠ "" then some (.failed emitError) else none }

def ofScript (script : Json) : Engine where
  newProgram setting request :=
    if str script "panic" ≠ "" then pure (.error (.crashed (str script "panic")))
    else if str script "program_error" ≠ "" then pure (.error (.failed (str script "program_error")))
    else pure (.ok (scriptedProgram script setting.fs request))
  resolveModule _ specifier _ _ :=
    pure (if has (get script "resolve") specifier
      then some { fileName := str (get script "resolve") specifier } else none)
  buildProject _ config :=
    let errors := get script "build_errors"
    pure (if has errors config.path then .error (.failed (str errors config.path)) else .ok ())

end ScriptLoader.Engine
