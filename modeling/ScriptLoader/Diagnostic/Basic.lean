/-! Diagnostics: what is wrong, how bad it is, and where. -/

set_option autoImplicit false
namespace ScriptLoader

/-- How much a diagnostic matters. Values that have no name are kept by their number. -/
inductive Category where
  | message
  | suggestion
  | warning
  | error
  | unnamed (value : UInt8)
  deriving DecidableEq, Repr, Inhabited

namespace Category

def ofByte (value : UInt8) : Category :=
  if value = 0 then .message else if value = 1 then .suggestion else if value = 2 then .warning
  else if value = 3 then .error else .unnamed value

def rank : Category → UInt8
  | .message => 0
  | .suggestion => 1
  | .warning => 2
  | .error => 3
  | .unnamed value => value

def name : Category → String
  | .message => "message"
  | .suggestion => "suggestion"
  | .warning => "warning"
  | .error => "error"
  | .unnamed _ => "unknown"

end Category

/-- The number of a diagnostic; 0 stands for none. -/
structure Code where
  value : UInt32
  deriving DecidableEq, Repr, Inhabited

namespace Code

def none : Code := ⟨0⟩
def sourceMapWithInlineSourceMap : Code := ⟨5053⟩
def bundlerRequiresModules : Code := ⟨5095⟩
/-- Reported whenever imports of source extensions are combined with output. Output is always written here, so
it never blocks. -/
def sourceExtensionsWithEmit : Code := ⟨5096⟩
def moduleMustMatchResolution : Code := ⟨5110⟩
def invalidOptionValue : Code := ⟨6046⟩
def fileNotFound : Code := ⟨6053⟩
def referenceCycle : Code := ⟨6202⟩
def referenceNotBuilt : Code := ⟨6305⟩
def noInputs : Code := ⟨18003⟩

def titles : List (Code × String) := [
  (sourceMapWithInlineSourceMap, "sourceMap with inlineSourceMap"),
  (bundlerRequiresModules, "bundler resolution requires ES module"),
  (sourceExtensionsWithEmit, "allowImportingTsExtensions with emit"),
  (moduleMustMatchResolution, "module must match moduleResolution"),
  (invalidOptionValue, "invalid option value"),
  (fileNotFound, "file not found"),
  (referenceCycle, "circular project references"),
  (referenceNotBuilt, "referenced project not built"),
  (noInputs, "no inputs")]

def title (code : Code) : String := (titles.lookup code).getD ""

def name (code : Code) : String := if code = none then "" else "TS" ++ toString code.value.toNat

end Code

/-- A diagnostic. The empty file stands for no file, and a line below 1 for no position; lines and columns
count from 1, columns and lengths in bytes. -/
structure Diagnostic where
  category : Category
  code : Code
  message : String
  file : String := ""
  line : Int := 0
  column : Int := 0
  length : Int := 0
  lineText : String := ""
  deriving DecidableEq, Repr, Inhabited

namespace Diagnostic

def ofError (code : Code) (message : String) : Diagnostic :=
  ⟨.error, code, message, "", 0, 0, 0, ""⟩

def inFile (d : Diagnostic) (file : String) : Diagnostic := { d with file := file }

def isError (d : Diagnostic) : Bool := d.category == .error

def position (d : Diagnostic) : String :=
  if d.file = "" then ""
  else if d.line ≤ 0 then d.file
  else d.file ++ "(" ++ toString d.line ++ "," ++ toString (max d.column 1) ++ ")"

/-- Whether `a` may stand before `b`: by file, line, column, then the graver category, then the code. -/
def before (a b : Diagnostic) : Bool :=
  if a.file ≠ b.file then a.file < b.file
  else if a.line ≠ b.line then a.line < b.line
  else if a.column ≠ b.column then a.column < b.column
  else if a.category.rank ≠ b.category.rank then b.category.rank < a.category.rank
  else a.code.value ≤ b.code.value

/-- Orders diagnostics for display; equal ones keep their order. -/
def sort (diagnostics : List Diagnostic) : List Diagnostic := diagnostics.mergeSort before

def hasErrors (diagnostics : List Diagnostic) : Bool := diagnostics.any isError

def errorsExcept (code : Code) (diagnostics : List Diagnostic) : List Diagnostic :=
  diagnostics.filter fun d => d.isError && d.code != code

end Diagnostic
end ScriptLoader
