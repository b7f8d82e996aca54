import ScriptLoader.Project.Config

/-! The configuration that governs a file: the nearest one above it that lists it. -/

set_option autoImplicit false
namespace ScriptLoader.Project

inductive Candidate where
  | absent
  | inaccessible (e : FileError)
  | unusable (e : ConfigError)
  | other (config : Config)
  | governing (config : Config)

def examine (fs : FileSystem) (member candidate : String) : Run LogEntry Candidate :=
  match fs.stat candidate with
  | .error e => pure (if e.problem = .notFound then .absent else .inaccessible e)
  | .ok _ => do
    match ← parse fs candidate with
    | .error e => return .unusable e
    | .ok config => return if config.owns fs member then .governing config else .other config

def Candidate.log (file candidate : String) : Candidate → List LogEntry
  | .absent => []
  | .inaccessible e =>
    [.debug "project" "config not accessible" [("path", .text candidate), ("error", .text e.message)]]
  | .unusable e =>
    [.debug "project" "skipping unparsable config" [("path", .text candidate), ("error", .text e.message)]]
  | .other _ => [.debug "project" "config does not list file" [("file", .text file), ("config", .text candidate)]]
  | .governing _ => [.debug "project" "config found" [("file", .text file), ("config", .text candidate)]]

def search (fs : FileSystem) (file member : String) : List String → Run LogEntry (Option Config)
  | [] => pure none
  | candidate :: rest => do
    let outcome ← examine fs member candidate
    Run.marks (outcome.log file candidate)
    match outcome with
    | .governing config => return some config
    | _ => search fs file member rest

/-- The candidates for an absolute path: in its directory and in those above it, but not in the root. -/
def candidates (file : String) : List String :=
  ((Path.ancestors (Path.dir file)).filter (· ≠ "/")).map fun dir => Path.join [dir, configFileName]

/-- The configuration used where none governs, without regard to its members. -/
def fallback (fs : FileSystem) (defaults : String) : Run LogEntry (Option Config) :=
  if defaults = "" then pure none
  else do
    match ← parse fs defaults with
    | .ok config => return some config
    | .error e =>
      Run.mark (.debug "project" "default config unusable" [("path", .text defaults), ("error", .text e.message)])
      return none

def find (fs : FileSystem) (file defaults : String) : Run LogEntry (Option Config) := do
  let file := fs.abs file
  match ← search fs file (fs.canonical file) (candidates file) with
  | some config => return some config
  | none => fallback fs defaults

end ScriptLoader.Project
