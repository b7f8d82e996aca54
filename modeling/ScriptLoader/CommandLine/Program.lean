import ScriptLoader.CommandLine.Check
import ScriptLoader.CommandLine.Governing
import ScriptLoader.Settings.Report
import ScriptLoader.Version

/-!
The program: `run` does what its arguments ask for, and `Outcome` is what the caller sees of it.
-/

set_option autoImplicit false
namespace ScriptLoader.CommandLine

def compile (context : Context) (arguments : Arguments) (session : Session) (setting : Setting) : Work Result := do
  match ModuleFormat.ofName (arguments.text "format") with
  | .error e => return (setting.fs, .error (.unknownFormat e))
  | .ok hint =>
    match ← perform ((session.pipeline context).compile setting (arguments.words.headD "") hint) with
    | .error e =>
      match e.cause with
      | .problem p =>
        tell (session.problemText setting.fs p)
        return (setting.fs, .error .reported)
      | _ => return (setting.fs, .error (.compilation e))
    | .ok output =>
      if arguments.isOn "show-format" then tell ("format: " ++ output.format.name ++ "\n")
      let path := arguments.text "output"
      if path = "" then
        write output.source
        return (setting.fs, .ok ())
      else match setting.fs.create path (Text.Utf8.encode output.source) with
        | .error e => return (setting.fs, .error (.unwritable e))
        | .ok fs => return (fs, .ok ())

def resolve (context : Context) (specifier parent : String) (session : Session) (setting : Setting) :
    Work (Except CommandError Unit) := do
  match ← session.chain context with
  | .error e => return .error e
  | .ok chain =>
    match ← perform (chain.resolve setting ⟨specifier, FileUrl.ofPath setting.fs parent, none⟩) with
    | .error e => return .error (.resolution e)
    | .ok result =>
      let target := match FileUrl.toPath result.url with
        | .ok path => path
        | .error _ => result.url
      write (target ++ ((result.format.map fun format => "\t" ++ format.name).getD "") ++ "\n")
      return .ok ()

def showConfig (file : Option String) (session : Session) (setting : Setting) : Work Unit := do
  match file with
  | none => write session.settings.report
  | some file =>
    let report ← perform (GoverningReport.ofFile session.settings.loader setting.fs file)
    write (report.render ++ "\n")

/-- What the flags of a server define; those left empty define nothing. -/
def serverSource (arguments : Arguments) : Settings.Source where
  addr := (arguments.value? "addr").filter (· ≠ "")
  root := (arguments.value? "root").filter (· ≠ "")

def setUp (context : Context) (arguments : Arguments) (session : Session) (fs : FileSystem) :
    Work (Except CommandError (Server × String)) := do
  let settings := session.settings.override (serverSource arguments)
  match ← session.chain context with
  | .error e => return .error e
  | .ok chain =>
    match Server.new fs settings.root (some chain) with
    | .error e => return .error (.setup e)
    | .ok server => return .ok (server, settings.addr)

def listen (setting : Setting) (server : Server) (addr : String) : Work (Except CommandError Unit) := do
  if setting.cancelled then return .ok ()
  else
    log ⟨.info, "server", "listening", [("addr", .text addr), ("root", .text server.root)]⟩
    match Server.addressProblem? addr with
    | some problem => return .error (.address problem)
    | none => return .ok ()

def serve (context : Context) (arguments : Arguments) (session : Session) (setting : Setting) :
    Work (Except CommandError Unit) := do
  match ← setUp context arguments session setting.fs with
  | .error e => return .error e
  | .ok (server, addr) => listen setting server addr

def showBuild (format : String) : Work (Except CommandError Unit) := do
  let build := BuildInfo.current
  match Text.lowerAscii format with
  | "pretty" =>
    write (build.banner false ++ "\n")
    return .ok ()
  | "json" =>
    write (Json.record (build.members "tsload") ++ "\n")
    return .ok ()
  | _ => return .error (.reportFormat format)

def keeping (work : Session → Setting → Work (Except CommandError Unit)) (session : Session) (setting : Setting) :
    Work Result := do
  return (setting.fs, ← work session setting)

def runCommand (context : Context) (arguments : Arguments) : Command → Work Result
  | .compile => inSession context arguments (compile context arguments)
  | .check => inSession context arguments (keeping (check context arguments))
  | .resolve => inSession context arguments
      (keeping (resolve context (arguments.words.headD "") (arguments.words.getD 1 "")))
  | .config => inSession context arguments fun session setting => do
      showConfig arguments.words.head? session setting
      return (setting.fs, .ok ())
  | .serve => inSession context arguments (keeping (serve context arguments))
  | .version => do return (context.setting.fs, ← showBuild (arguments.text "format" "pretty"))

structure Outcome where
  fs : FileSystem
  trace : List Act
  /-- Whether all entries of the log are shown, or only those that warn. -/
  verbose : Bool
  failure : Option CommandError

namespace Outcome

def output (outcome : Outcome) : String :=
  String.join (outcome.trace.map fun
    | .wrote text => text
    | _ => "")

def isShown (verbose : Bool) (level : LogLevel) : Bool := verbose || level = .warn || level = .error

/-- Standard error without the message of the failure. -/
def messages (outcome : Outcome) : String :=
  String.join (outcome.trace.map fun
    | .told text => text
    | .happened (.log entry) => if isShown outcome.verbose entry.level then entry.render ++ "\n" else ""
    | _ => "")

def failureMessage? (outcome : Outcome) : Option String :=
  match outcome.failure with
  | none => none
  | some .reported => none
  | some e => some (e.message outcome.fs.cwd)

def failureLine : Option String → String
  | none => ""
  | some message => "error: " ++ message ++ "\n"

def exitCode (outcome : Outcome) : Nat := if outcome.failure.isSome then 1 else 0

def happenings (outcome : Outcome) : List Happening :=
  outcome.trace.filterMap fun
    | .happened happening => some happening
    | _ => none

def ofWork (verbose : Bool) (work : Work Result) : Outcome where
  fs := work.value.1
  trace := work.trace
  verbose := verbose
  failure := match work.value.2 with
    | .ok () => none
    | .error e => some e

end Outcome

def run (context : Context) (arguments : List String) : Outcome :=
  let fs := context.setting.fs
  match Call.parse arguments with
  | .error e => .ofWork false (pure (fs, .error (.usage e)))
  | .ok .help => .ofWork false (pure (fs, .ok ()))
  | .ok .showVersion => .ofWork false do
    write (Command.programName ++ " version " ++ BuildInfo.current.version ++ "\n")
    return (fs, .ok ())
  | .ok (.run command parsed) => .ofWork (parsed.isOn "verbose") (runCommand context parsed command)

end ScriptLoader.CommandLine
