import ScriptLoader.Json.Basic
import ScriptLoader.Options.Kinds
import ScriptLoader.Text.Utf8

/-!
Compiler options. Every option that is read or forced somewhere has a field of its own, where `none`
stands for "not set"; all others travel untouched in `extra`.
-/

set_option autoImplicit false
namespace ScriptLoader

inductive Flag where
  | strict | allowImportingTsExtensions | suppressOutputPathCheck | emitBOM | emitDeclarationOnly
  | declaration | declarationMap | composite | inlineSourceMap | sourceMap | noEmit | noCheck
  | verbatimModuleSyntax | experimentalDecorators | useDefineForClassFields
  deriving DecidableEq, Repr

namespace Flag

def all : List Flag := [
  .strict, .allowImportingTsExtensions, .suppressOutputPathCheck, .emitBOM, .emitDeclarationOnly,
  .declaration, .declarationMap, .composite, .inlineSourceMap, .sourceMap, .noEmit, .noCheck,
  .verbatimModuleSyntax, .experimentalDecorators, .useDefineForClassFields]

def name : Flag → String
  | .strict => "strict"
  | .allowImportingTsExtensions => "allowImportingTsExtensions"
  | .suppressOutputPathCheck => "suppressOutputPathCheck"
  | .emitBOM => "emitBOM"
  | .emitDeclarationOnly => "emitDeclarationOnly"
  | .declaration => "declaration"
  | .declarationMap => "declarationMap"
  | .composite => "composite"
  | .inlineSourceMap => "inlineSourceMap"
  | .sourceMap => "sourceMap"
  | .noEmit => "noEmit"
  | .noCheck => "noCheck"
  | .verbatimModuleSyntax => "verbatimModuleSyntax"
  | .experimentalDecorators => "experimentalDecorators"
  | .useDefineForClassFields => "useDefineForClassFields"

end Flag

/-- The options whose value is a path; they are absolute once read. -/
inductive PathOption where
  | outFile | out | outDir | rootDir
  deriving DecidableEq, Repr

namespace PathOption

def all : List PathOption := [.outFile, .out, .outDir, .rootDir]

def name : PathOption → String
  | .outFile => "outFile"
  | .out => "out"
  | .outDir => "outDir"
  | .rootDir => "rootDir"

end PathOption

structure CompilerOptions where
  moduleKind : Option ModuleKind := none
  resolution : Option ResolutionKind := none
  target : Option ScriptTarget := none
  flag : Flag → Option Bool := fun _ => none
  path : PathOption → Option String := fun _ => none
  jsx : Option String := none
  extra : Fields Json := []

namespace CompilerOptions

def empty : CompilerOptions := {}

instance : Inhabited CompilerOptions := ⟨empty⟩

def setFlag (o : CompilerOptions) (f : Flag) (value : Option Bool) : CompilerOptions :=
  { o with flag := fun g => if g = f then value else o.flag g }

def setPath (o : CompilerOptions) (p : PathOption) (value : Option String) : CompilerOptions :=
  { o with path := fun q => if q = p then value else o.path q }

def isOn (o : CompilerOptions) (f : Flag) : Bool := (o.flag f).getD false

/-- Every option that `later` sets as there, and the others as in `o`. -/
def merge (o later : CompilerOptions) : CompilerOptions where
  moduleKind := later.moduleKind.or o.moduleKind
  resolution := later.resolution.or o.resolution
  target := later.target.or o.target
  flag := fun f => (later.flag f).or (o.flag f)
  path := fun p => (later.path p).or (o.path p)
  jsx := later.jsx.or o.jsx
  extra := o.extra.insertAll later.extra

def clone (o : CompilerOptions) : CompilerOptions := empty.merge o

/-- The options with fields of their own that are set, under their names. Texts are given as they are shown. -/
def known (o : CompilerOptions) : List (String × Json) :=
  (o.moduleKind.map fun kind => ("module", Json.string kind.word)).toList ++
  (o.resolution.map fun kind => ("moduleResolution", Json.string kind.word)).toList ++
  (o.target.map fun target => ("target", Json.string target.word)).toList ++
  Flag.all.filterMap (fun f => (o.flag f).map fun value => (f.name, Json.bool value)) ++
  PathOption.all.filterMap (fun p => (o.path p).map fun value => (p.name, Json.string (Text.Utf8.shown value))) ++
  (o.jsx.map fun value => ("jsx", Json.string (Text.Utf8.shown value))).toList

/-- The options in the form of a configuration file. Fields win over extra entries of the same name. -/
def toFields (o : CompilerOptions) : Fields Json := o.extra.insertAll o.known

def toJson (o : CompilerOptions) : Json := .object o.toFields

def effectiveTarget (o : CompilerOptions) : ScriptTarget := o.target.getD .es5

/-- The module system in effect: when it is not set, the resolution or else the language level decides. -/
def effectiveModule (o : CompilerOptions) : ModuleKind :=
  match o.moduleKind with
  | some kind => kind
  | none =>
    if o.resolution = some .node16 then .node16
    else if o.resolution = some .nodeNext then .nodeNext
    else if ScriptTarget.es2015.value ≤ o.effectiveTarget.value then .es2015
    else .commonJS

end CompilerOptions
end ScriptLoader
