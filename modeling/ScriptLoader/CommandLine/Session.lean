import ScriptLoader.CommandLine.Command
import ScriptLoader.Hooks.Loader
import ScriptLoader.Profiling
import ScriptLoader.Server.Address
import ScriptLoader.Server.Basic
import ScriptLoader.Settings.Basic
import ScriptLoader.Timing

/-!
What all commands share: the effective settings, the log, and the profiles and times that are collected
while a command works.
-/

set_option autoImplicit false
namespace ScriptLoader.CommandLine

structure Context where
  setting : Setting
  environment : Fields String
  engine : Engine

inductive Act where
  | happened (happening : Happening)
  /-- Text for standard output. -/
  | wrote (text : String)
  /-- Text for standard error. -/
  | told (text : String)

abbrev Work (α : Type) := Run Act α

def write (text : String) : Work Unit := Run.mark (.wrote text)

def tell (text : String) : Work Unit := Run.mark (.told text)

def log (entry : LogEntry) : Work Unit := Run.mark (.happened (.log entry))

def perform {α : Type} (work : Traced α) : Work α := work.relabel .happened

inductive CommandError where
  /-- The failure has been told already. -/
  | reported
  | usage (e : UsageError)
  | colorMode (text : String)
  | settings (e : SettingsError)
  | emptyDefaults
  | profiling (e : Profiling.ProfileError)
  | unknownFormat (e : UnknownName)
  | compilation (e : CompileError)
  | unwritable (e : FileError)
  | refused (e : InitError)
  | resolution (e : HookError)
  | displayMode (text : String)
  | noProject (e : Project.ConfigError)
  | noSources (config : String)
  | setup (e : Server.SetupError)
  | address (problem : Server.AddressProblem)
  | reportFormat (text : String)

def CommandError.message (cwd : String) : CommandError → String
  | .reported => ""
  | .usage e => e.message
  | .colorMode text => "unsupported color mode " ++ Text.quoted text ++ " (must be auto, on or off)"
  | .settings e => e.message
  | .emptyDefaults => "--defaults must not be empty"
  | .profiling e => e.message
  | .unknownFormat e => e.message
  | .compilation e => e.message cwd
  | .unwritable e => e.message
  | .refused e => e.refusal
  | .resolution e => e.message cwd
  | .displayMode text => "invalid --ui value " ++ Text.quoted text ++ " (expected auto|on|off)"
  | .noProject e => "no files given and no usable " ++ Project.configFileName ++ ": " ++ e.message
  | .noSources config => config ++ " has no source files"
  | .setup e => e.message
  | .address problem => problem.message
  | .reportFormat text => "unsupported format " ++ Text.quoted text ++ " (must be pretty or json)"

structure Session where
  settings : Settings
  color : Bool
  timed : Bool
  profile : Profiling.Session

namespace Session

/-- Whether output is coloured. Standard error is no terminal here. -/
def color? (mode : String) : Option Bool :=
  if mode = "on" then some true else if mode = "off" ∨ mode = "auto" then some false else none

/-- What the flags of every command define. A path is seen from the working directory. -/
def flagSource (fs : FileSystem) (arguments : Arguments) : Except CommandError Settings.Source :=
  match arguments.value? "defaults" with
  | some path =>
    if path = "" then .error .emptyDefaults
    else .ok { check := arguments.switch? "check", defaults := some (fs.abs path) }
  | none => .ok { check := arguments.switch? "check" }

def effectiveSettings (fs : FileSystem) (environment : Fields String) (dir : String) (arguments : Arguments) :
    Except CommandError Settings := do
  let settings ← (Settings.load fs environment dir).mapError .settings
  let flags ← flagSource fs arguments
  return settings.override flags

def profilePaths (arguments : Arguments) : Profiling.Paths :=
  ⟨arguments.text "cpu-profile", arguments.text "mem-profile", arguments.text "runtime-trace"⟩

/-- Begins a session, which may make files for profiles. -/
def start (context : Context) (arguments : Arguments) : FileSystem × Except CommandError Session :=
  let fs := context.setting.fs
  let mode := arguments.text "color" "auto"
  match color? mode with
  | none => (fs, .error (.colorMode mode))
  | some color =>
    match effectiveSettings fs context.environment "." arguments with
    | .error e => (fs, .error e)
    | .ok settings =>
      match Profiling.start fs {} (profilePaths arguments) with
      | (fs, .error e) => (fs, .error (.profiling e))
      | (fs, .ok profile) => (fs, .ok ⟨settings, color, arguments.isOn "timings", profile⟩)

def opening (session : Session) : LogEntry :=
  .debug "" "configuration loaded" [("file", .text session.settings.path),
    ("check", .flag session.settings.loader.checkEnabled), ("defaults", .text session.settings.loader.defaults)]

/-- The stages that ended while a command worked. Durations are left to the clock and are none here. -/
def times (trace : List Act) : Timer :=
  trace.foldl (fun timer act =>
    match act with
    | .happened (.progress event) => timer.observe event.stage.name event.status 0
    | _ => timer) {}

def finish (session : Session) (fs : FileSystem) (trace : List Act) : Work FileSystem := do
  let (fs, _, problem) := Profiling.stop fs session.profile
  match problem with
  | some e => log ⟨.warn, "", "profiling", [("error", .text e.message)]⟩
  | none => pure ()
  if session.timed then tell (times trace).summary
  return fs

def pipeline (session : Session) (context : Context) : Pipeline := ⟨context.engine, session.settings.loader⟩

def problemText (session : Session) (fs : FileSystem) (p : Problem) : String :=
  p.format fs.cwd { pretty := true, color := session.color }

def chain (session : Session) (context : Context) : Work (Except CommandError Chain) := do
  match ← perform (Chain.register {} context.engine session.settings.loader) with
  | .ok (chain, _) => return .ok chain
  | .error e => return .error (.refused e)

end Session

/-- What a command comes to: the files afterwards, and whether it failed. -/
abbrev Result := FileSystem × Except CommandError Unit

def inSession (context : Context) (arguments : Arguments) (work : Session → Setting → Work Result) : Work Result :=
  match Session.start context arguments with
  | (fs, .error e) => pure (fs, .error e)
  | (fs, .ok session) => do
    log session.opening
    let run := work session { context.setting with fs := fs }
    Run.marks run.trace
    let fs ← session.finish run.value.1 run.trace
    return (fs, run.value.2)

end ScriptLoader.CommandLine
