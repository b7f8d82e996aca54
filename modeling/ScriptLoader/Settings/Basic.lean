import ScriptLoader.FileTree
import ScriptLoader.LoaderOptions
import ScriptLoader.Settings.DotEnv
import ScriptLoader.Text.CaseFold
import ScriptLoader.Text.Quoted
import ScriptLoader.Toml.Document

/-!
Settings. Each setting is decided on its own by the first source that defines it: the environment, the file
of variables in the start directory, the nearest settings file, and a default in the end.
-/

set_option autoImplicit false
namespace ScriptLoader

inductive SettingsError where
  | unreachable (e : FileError)
  | malformedFile (path : String)
  | unknownKeys (path : String) (keys : List Toml.Key)
  | emptyDefaults (path : String)
  | malformedVariables (path : String)
  | notFlag (text : String)
  deriving DecidableEq, Repr

def SettingsError.message : SettingsError → String
  | .unreachable e => "failed to stat " ++ Text.quoted e.path ++ ": " ++ e.message
  | .malformedFile path => path ++ ": failed to parse TOML: malformed text"
  | .unknownKeys path keys => path ++ ": unknown keys: " ++ String.intercalate ", " (keys.map Toml.renderKey)
  | .emptyDefaults path => path ++ ": [loader].defaults must not be empty"
  | .malformedVariables path => path ++ ": malformed text"
  | .notFlag text => "TSLOAD_CHECK: strconv.ParseBool: parsing " ++ Text.quoted text ++ ": invalid syntax"

structure Settings where
  path : String
  loader : LoaderOptions
  addr : String
  root : String
  deriving DecidableEq, Repr

namespace Settings

def fileName : String := "tsload.toml"

def defaultAddr : String := "127.0.0.1:8080"

structure Source where
  check : Option Bool := none
  defaults : Option String := none
  addr : Option String := none
  root : Option String := none
  deriving DecidableEq, Repr

/-- Setting by setting the first of two sources that defines it. -/
def Source.or (first second : Source) : Source where
  check := first.check.or second.check
  defaults := first.defaults.or second.defaults
  addr := first.addr.or second.addr
  root := first.root.or second.root

def findFrom (fs : FileSystem) : List String → Except SettingsError (Option String)
  | [] => .ok none
  | dir :: above =>
    let candidate := Path.join [dir, fileName]
    match fs.stat candidate with
    | .ok _ => .ok (some candidate)
    | .error e => if e.problem = .notFound then findFrom fs above else .error (.unreachable e)

def startDir (fs : FileSystem) (start : String) : String := fs.abs (if start = "" then "." else start)

def find (fs : FileSystem) (start : String) : Except SettingsError (Option String) :=
  findFrom fs (Path.ancestors (startDir fs start))

/-- The names that a settings file may have: those of its tables, and below them those of the settings. -/
def knownNames : List (String × List String) := [("loader", ["check", "defaults"]), ("serve", ["addr", "root"])]

/-- The known name that a written one stands for; case does not count. -/
def known? (names : List String) (written : String) : Option String := names.find? (Text.sameName · written)

def isKnown (root : Toml.Members) : Toml.Key → Bool
  | [table] => (known? (knownNames.map Prod.fst) table).isSome && (root.lookup table).isSome
  | [table, name] =>
    match known? (knownNames.map Prod.fst) table, root.lookup table with
    | some known, some (.table members) =>
      (known? ((knownNames.lookup known).getD []) name).isSome && (members.lookup name).isSome
    | _, _ => false
  | _ => false

def fits (setting : String) (node : Toml.Node) : Bool :=
  match node with
  | .flag _ => setting = "check"
  | .text _ => setting ≠ "check"
  | _ => false

def wellTyped (root : Toml.Members) : Bool :=
  root.all fun (written, node) =>
    match known? (knownNames.map Prod.fst) written with
    | none => true
    | some table =>
      match node with
      | .table members => members.all fun (written, node) =>
          match known? ((knownNames.lookup table).getD []) written with
          | none => true
          | some setting => fits setting node
      | _ => false

def value? (root : Toml.Members) (table setting : String) : Option Toml.Node :=
  match root.lookup table with
  | some (.table members) => members.lookup setting
  | _ => none

def text? (root : Toml.Members) (table setting : String) : Option String :=
  match value? root table setting with
  | some (.text text) => some text
  | _ => none

def flag? (root : Toml.Members) (table setting : String) : Option Bool :=
  match value? root table setting with
  | some (.flag value) => some value
  | _ => none

def absFrom (dir path : String) : String := if Path.isAbs path then Path.clean path else Path.join [dir, path]

def ofFile (fs : FileSystem) (path : String) : Except SettingsError Source :=
  match ((fs.read path).toOption).bind Toml.Document.read? with
  | none => .error (.malformedFile path)
  | some document =>
    let unknown := document.order.filter (!isKnown document.root ·)
    let defaults := text? document.root "loader" "defaults"
    if !wellTyped document.root then .error (.malformedFile path)
    else if unknown ≠ [] then .error (.unknownKeys path unknown)
    else if defaults.any (Text.trimBlank · = "") then .error (.emptyDefaults path)
    else .ok
      { check := flag? document.root "loader" "check"
        defaults := defaults.map (absFrom (Path.dir path))
        addr := text? document.root "serve" "addr"
        root := (text? document.root "serve" "root").map (absFrom (Path.dir path)) }

def checkVariable : String := "TSLOAD_CHECK"
def defaultsVariable : String := "TSLOAD_DEFAULTS"
def addrVariable : String := "TSLOAD_ADDR"
def rootVariable : String := "TSLOAD_ROOT"

def variablesOf (fs : FileSystem) (base : String) : Except SettingsError (Fields String) :=
  let path := Path.join [base, ".env"]
  match fs.read path with
  | .error e => if e.problem = .notFound then .ok [] else .error (.malformedVariables path)
  | .ok content =>
    match DotEnv.read? content with
    | some entries => .ok entries
    | none => .error (.malformedVariables path)

/-- A variable that is set and not empty, of the environment first. -/
def valueOf? (environment entries : Fields String) (name : String) : Option String :=
  ((environment.get? name).filter (· ≠ "")).or ((entries.get? name).filter (· ≠ ""))

def parseFlag (text : String) : Except SettingsError Bool :=
  match Text.truth? text with
  | some value => .ok value
  | none => .error (.notFlag text)

def ofVariables (environment entries : Fields String) (base : String) : Except SettingsError Source :=
  let rest : Source :=
    { defaults := (valueOf? environment entries defaultsVariable).map (absFrom base)
      addr := valueOf? environment entries addrVariable
      root := (valueOf? environment entries rootVariable).map (absFrom base) }
  match valueOf? environment entries checkVariable with
  | none => .ok rest
  | some text => (parseFlag text).map fun check => { rest with check := some check }

def ofSource (path base : String) (source : Source) : Settings where
  path := path
  loader := { check := source.check, defaults := source.defaults.getD "" }
  addr := source.addr.getD defaultAddr
  root := source.root.getD base

/-- The settings with everything else that a source defines in their place. -/
def override (first : Source) (settings : Settings) : Settings where
  path := settings.path
  loader :=
    { check := first.check.or settings.loader.check
      defaults := first.defaults.getD settings.loader.defaults }
  addr := first.addr.getD settings.addr
  root := first.root.getD settings.root

def load (fs : FileSystem) (environment : Fields String) (start : String) : Except SettingsError Settings := do
  let base := startDir fs start
  let path ← find fs base
  let file ← match path with
    | none => .ok {}
    | some path => ofFile fs path
  let entries ← variablesOf fs base
  let source ← ofVariables environment entries base
  return ofSource (path.getD "") base (source.or file)

end Settings
end ScriptLoader
