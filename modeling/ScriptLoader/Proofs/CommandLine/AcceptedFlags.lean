import ScriptLoader.CommandLine.Command
import Mathlib.Data.Nat.Init

/-! Flags that are set have values of their kinds. -/

set_option autoImplicit false
namespace ScriptLoader

namespace CommandLine

section
variable {flags : List Flag}

end
end CommandLine
end ScriptLoader
