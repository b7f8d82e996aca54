import ScriptLoader.Path
import ScriptLoader.Text.Utf8

/-! Which file below the served directory a path of a request names. -/

set_option autoImplicit false
namespace ScriptLoader.Server

def isPlainComponent (component : String) : Bool := component ≠ "" && component ≠ "." && component ≠ ".."

/-- Whether a path leads downwards by every component. The directory itself is `.`. -/
def isDownward (path : String) : Bool := path = "." || (Text.pieces path '/').all isPlainComponent

def dropSlash : List UInt8 → List UInt8
  | [] => []
  | b :: rest => if b = 0x2F then rest else b :: rest

/-- The file below the root that a path names. Refuses what is not well-formed text and what does not lead downwards. -/
def localPath (root : String) (path : List UInt8) : Option String :=
  match Text.Utf8.decode? (dropSlash path) with
  | none => none
  | some path => if isDownward path then some (Path.join [root, path]) else none

end ScriptLoader.Server
