import ScriptLoader.Path

/-! What the name of a file says about it: a source, a declaration file or a script. -/

set_option autoImplicit false
namespace ScriptLoader.SourceName

def sourceExtensions : List String := [".ts", ".mts", ".cts"]

def scriptExtensions : List String := [".js", ".mjs", ".cjs"]

def endsLikeSource (name : String) : Bool := sourceExtensions.any (Text.endsWith name)

def hasDeclarationMark (name : String) : Bool := Text.endsWith (Path.dropExt name) ".d"

def isDeclaration (name : String) : Bool :=
  sourceExtensions.contains (Path.ext name) && hasDeclarationMark name

def isSource (name : String) : Bool :=
  sourceExtensions.contains (Path.ext name) && !isDeclaration name

def isScript (name : String) : Bool := scriptExtensions.contains (Path.ext name)

def outputName (name : String) : String :=
  Path.dropExt name ++
    (if Path.ext name = ".mts" then ".mjs" else if Path.ext name = ".cts" then ".cjs" else ".js")

def markedExtension (name : String) : String :=
  if hasDeclarationMark name then ".d" ++ Path.ext name else Path.ext name

end ScriptLoader.SourceName
