import ScriptLoader.Diagnostic.Basic
import ScriptLoader.Options.Basic

/-! Combinations of options that contradict each other. -/

set_option autoImplicit false
namespace ScriptLoader.CompilerOptions

def checkSourceMaps (o : CompilerOptions) : List Diagnostic :=
  if o.isOn .sourceMap && o.isOn .inlineSourceMap then
    [.ofError .sourceMapWithInlineSourceMap
      "Option 'sourceMap' cannot be specified with option 'inlineSourceMap'."]
  else []

def checkSourceExtensions (o : CompilerOptions) : List Diagnostic :=
  if o.isOn .allowImportingTsExtensions && !o.isOn .noEmit && !o.isOn .emitDeclarationOnly then
    [.ofError .sourceExtensionsWithEmit
      "Option 'allowImportingTsExtensions' can only be used when either 'noEmit' or 'emitDeclarationOnly' is set."]
  else []

def mustMatch (kind : ModuleKind) (resolution : ResolutionKind) : Diagnostic :=
  .ofError .moduleMustMatchResolution
    ("Option 'module' must be set to '" ++ kind.name ++ "' when option 'moduleResolution' is set to '" ++
      resolution.name ++ "'.")

def checkResolution (o : CompilerOptions) : List Diagnostic :=
  let kind := o.effectiveModule
  if o.resolution = some .node16 then
    if kind.isNode then [] else [mustMatch .node16 .node16]
  else if o.resolution = some .nodeNext then
    if kind.isNode then [] else [mustMatch .nodeNext .nodeNext]
  else if o.resolution = some .bundler then
    if kind ≠ .preserve ∧ kind.value < ModuleKind.es2015.value then
      [.ofError .bundlerRequiresModules
        "Option 'bundler' can only be used when 'module' is set to 'preserve' or to 'es2015' or later."]
    else []
  else []

def validate (o : CompilerOptions) : List Diagnostic :=
  checkSourceMaps o ++ checkSourceExtensions o ++ checkResolution o

end ScriptLoader.CompilerOptions
