import ScriptLoader.Json.Writer
import ScriptLoader.Options.Basic

/-! The part of the options that the transformer of a single file reads, as the text of a configuration file. -/

set_option autoImplicit false
namespace ScriptLoader.CompilerOptions

def transformNames : List String := [
  "alwaysStrict", "baseUrl", "experimentalDecorators", "importsNotUsedAsValues", "jsx", "jsxFactory",
  "jsxFragmentFactory", "jsxImportSource", "paths", "preserveValueImports", "strict", "target",
  "useDefineForClassFields", "verbatimModuleSyntax"]

def transformFields (o : CompilerOptions) : Fields Json :=
  o.toFields.filter fun field => transformNames.contains field.1

def transformText (o : CompilerOptions) : String :=
  Json.render (.object [("compilerOptions", .object o.transformFields)])

end ScriptLoader.CompilerOptions
