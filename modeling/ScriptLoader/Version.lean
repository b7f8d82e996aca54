import ScriptLoader.Json.Basic
import ScriptLoader.Text.Basic
import ScriptLoader.Text.Style

/-! The build and how it is shown. -/

set_option autoImplicit false
namespace ScriptLoader

structure BuildInfo where
  version : String
  commit : String := ""
  date : String := ""
  deriving DecidableEq, Repr

namespace BuildInfo

def current : BuildInfo := { version := "0.1.0-dev" }

def divide (version : String) : String × String :=
  let core := version.toList.takeWhile fun c => c ≠ '-' && c ≠ '+'
  (String.ofList core, String.ofList (version.toList.drop core.length))

/-- The version with its first two numbers and what follows them in colours of their own. A version of another
form stays plain. -/
def coloured (enabled : Bool) (build : BuildInfo) : String :=
  let (core, suffix) := divide build.version
  match Text.pieces core '.' with
  | major :: minor :: first :: more =>
    Text.Style.yellow.inBold.paint enabled major ++ "." ++ Text.Style.green.inBold.paint enabled minor ++ "." ++
      Text.Style.blue.inBold.paint enabled (String.intercalate "." (first :: more)) ++ suffix
  | _ => build.version

def banner (enabled : Bool) (build : BuildInfo) : String :=
  "tsload " ++ build.coloured enabled ++ (if build.commit = "" then "" else " (" ++ build.commit ++ ")") ++
    (if build.date = "" then "" else " built " ++ build.date)

def members (tool : String) (build : BuildInfo) : List (String × Json) :=
  let given (name value : String) : List (String × Json) := if value = "" then [] else [(name, .string value)]
  [("tool", .string tool), ("version", .string build.version)] ++ given "git_commit" build.commit ++
    given "build_date" build.date

end BuildInfo
end ScriptLoader
