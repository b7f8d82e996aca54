import ScriptLoader.CommandLine.Session
import ScriptLoader.Options.TransformText

/-! What governs the compilation of a file, as the program tells it. -/

set_option autoImplicit false
namespace ScriptLoader.CommandLine

structure GoverningReport where
  file : String
  /-- The configuration; `none` when the defaults apply. -/
  config : Option String
  /-- The format of the output, where the options decide it. -/
  format : Option ModuleFormat
  options : CompilerOptions

namespace GoverningReport

def implied (fs : FileSystem) (file : String) (o : CompilerOptions) : Option ModuleKind :=
  if o.effectiveModule.isNode then some (ModuleFormat.implied fs file) else none

def ofFile (loader : LoaderOptions) (fs : FileSystem) (file : String) : Traced GoverningReport := do
  let file := fs.abs file
  let config ← (Project.find fs file loader.defaults).relabel .log
  let found := (config.map (·.options)).getD CompilerOptions.defaults
  let options := found.normalize loader.checkEnabled
  return {
    file := file
    config := config.map (·.path)
    format := ModuleFormat.infer file (implied fs file options) options
    options := options }

def configText (report : GoverningReport) : String :=
  report.config.getD ("(defaults: " ++ CompilerOptions.defaultsDescription ++ ")")

def render (report : GoverningReport) : String :=
  let format := report.format.map fun format => ("format", Json.string format.name)
  Json.prettyRecord ([("file", .string report.file), ("config", .string report.configText)] ++ format.toList ++
    [("compilerOptions", report.options.toJson)])

end GoverningReport
end ScriptLoader.CommandLine
