import ScriptLoader.Diagnostic.Format
import ScriptLoader.Options.Normalize
import ScriptLoader.Text.Blank

/-! The ways in which the compilation of a file comes to no usable result. -/

set_option autoImplicit false
namespace ScriptLoader

inductive ProblemKind where
  | compilation
  | multipleOutputs
  | noOutput
  deriving DecidableEq, Repr

def ProblemKind.title : ProblemKind → String
  | .compilation => "Compilation error"
  | .multipleOutputs => "Multiple compilation outputs"
  | .noOutput => "No compilation output"

/-- A file that was not compiled; the configuration is empty when the defaults applied. -/
structure Problem where
  kind : ProblemKind
  file : String
  config : String
  diagnostics : List Diagnostic := []
  deriving DecidableEq, Repr

namespace Problem

def header (cwd : String) (p : Problem) : String :=
  p.kind.title ++ " at " ++ Diagnostic.displayPath cwd p.file ++ " (using " ++
    (if p.config = "" then CompilerOptions.defaultsDescription else Diagnostic.displayPath cwd p.config) ++ ")"

/-- The header and, after an empty line, the diagnostics. Without a directory in the options, paths are shown
relative to `cwd`. -/
def format (cwd : String) (options : Diagnostic.FormatOptions) (p : Problem) : String :=
  let options := if options.cwd = "" then { options with cwd := cwd } else options
  header options.cwd p ++
    if p.diagnostics.isEmpty then ""
    else "\n\n" ++ Text.trimBlank (Diagnostic.format options p.diagnostics) ++ "\n"

def message (cwd : String) (p : Problem) : String := p.format cwd {}

end Problem
end ScriptLoader
