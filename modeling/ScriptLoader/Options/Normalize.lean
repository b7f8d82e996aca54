import ScriptLoader.Options.Basic

/-! The options under which one file is compiled to exactly one script with an inline source map. -/

set_option autoImplicit false
namespace ScriptLoader.CompilerOptions

def defaultModule : ModuleKind := .node16
def defaultResolution : ResolutionKind := .node16
def defaultTarget : ScriptTarget := .es2023

/-- The options for files that no configuration governs. -/
def defaults : CompilerOptions :=
  (empty.setFlag .strict (some true)).setFlag .allowImportingTsExtensions (some true)

def defaultsDescription : String := "module " ++ defaultModule.name ++ " and target " ++ defaultTarget.name

/-- The values that single-file compilation demands of some flags. -/
def forcedFlag : Flag → Option Bool
  | .suppressOutputPathCheck | .inlineSourceMap => some true
  | .emitBOM | .emitDeclarationOnly | .declaration | .declarationMap | .noEmit | .sourceMap => some false
  | _ => none

/-- Forces single-file compilation. Module kind and resolution are filled in only together, and without
checking `noCheck` is set. -/
def normalize (o : CompilerOptions) (check : Bool) : CompilerOptions :=
  let bare := o.moduleKind.isNone && o.resolution.isNone
  { o with
    moduleKind := if bare then some defaultModule else o.moduleKind
    resolution := if bare then some defaultResolution else o.resolution
    target := o.target.or (some defaultTarget)
    flag := fun f =>
      if f = .noCheck ∧ !check then some true else (forcedFlag f).or (o.flag f)
    path := fun p =>
      match p with
      | .outFile | .out => none
      | .outDir | .rootDir => o.path p }

end ScriptLoader.CompilerOptions
