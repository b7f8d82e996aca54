import ScriptLoader.FileTree
import ScriptLoader.Options.Basic
import ScriptLoader.PackageFile

/-! Whether a compiled file runs as a module of the language or as a CommonJS script. -/

set_option autoImplicit false
namespace ScriptLoader

/-- A host may ask for formats of its own, which are passed on by their names. -/
inductive ModuleFormat where
  | module
  | commonJS
  | other (name : String)
  deriving DecidableEq, Repr

namespace ModuleFormat

def name : ModuleFormat → String
  | .module => "module"
  | .commonJS => "commonjs"
  | .other name => name

/-- The format that a host asks for; the empty name asks for none. -/
def ofHint (name : String) : Option ModuleFormat :=
  if name = "" then none
  else if name = "module" then some .module
  else if name = "commonjs" then some .commonJS
  else some (.other name)

def ofName (name : String) : Except UnknownName (Option ModuleFormat) :=
  if name = "" then .ok none
  else if name = "module" then .ok (some .module)
  else if name = "commonjs" then .ok (some .commonJS)
  else .error ⟨"module format", name⟩

def ofKind? (kind : ModuleKind) : Option ModuleFormat :=
  if kind.isES then some .module else if kind = .commonJS then some .commonJS else none

/-- The format that a file's output has by its options; `none` when they leave it open. For kinds that decide
file by file, what the file implies comes first, and then its extension. -/
def infer (fileName : String) (implied : Option ModuleKind) (o : CompilerOptions) : Option ModuleFormat :=
  match o.moduleKind with
  | none => none
  | some kind =>
    if kind.isNode then
      match implied with
      | some kind => ofKind? kind
      | none =>
        if Path.ext fileName = ".mts" then some .module
        else if Path.ext fileName = ".cts" then some .commonJS
        else none
    else ofKind? kind

/-- The module kind that a file's place implies: by its extension, or else by the nearest package file. -/
def implied (fs : FileSystem) (path : String) : ModuleKind :=
  if Path.ext path = ".mts" ∨ Path.ext path = ".mjs" then .esNext
  else if Path.ext path = ".cts" ∨ Path.ext path = ".cjs" then .commonJS
  else
    let packages := (Path.ancestors (Path.dir path)).filterMap fun dir =>
      (fs.read (Path.join [dir, "package.json"])).toOption
    match packages.head? with
    | some content => if PackageFile.declaresModule content then .esNext else .commonJS
    | none => .commonJS

end ModuleFormat
end ScriptLoader
