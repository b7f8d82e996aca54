import ScriptLoader.Hooks.Basic

/-!
What the host does with a request that every hook passes on: it resolves files by their paths and loads
scripts as they are.
-/

set_option autoImplicit false
namespace ScriptLoader.Host

def formatOf (fs : FileSystem) (path : String) : Option ModuleFormat :=
  if Path.ext path = ".mjs" then some .module
  else if Path.ext path = ".cjs" then some .commonJS
  else if Path.ext path = ".js" then
    some (if ModuleFormat.implied fs path = .esNext then .module else .commonJS)
  else none

def fileOf (request : ResolveRequest) : Except HookError String :=
  let specifier := request.specifier
  if Text.startsWith specifier "file:" then (FileUrl.toPath specifier).mapError .url
  else if Path.isAbs specifier then .ok specifier
  else if Text.startsWith specifier "./" || Text.startsWith specifier "../" then
    if request.parent = "" then .ok specifier
    else match FileUrl.toPath request.parent with
      | .error e => .error (.parentUrl specifier e)
      | .ok parent => .ok (Path.join [Path.dir parent, specifier])
  else .error (.packageNotFound specifier request.parent)

/-- Resolves a specifier. Modules that are built into the host stay as they are; a file must exist. -/
def resolve (fs : FileSystem) (request : ResolveRequest) : Except HookError ResolveResult :=
  if Text.startsWith request.specifier "node:" then
    .ok { url := request.specifier, attributes := request.attributes }
  else match fileOf request with
    | .error e => .error e
    | .ok path =>
      match fs.stat path with
      | .error _ => .error (.moduleNotFound path)
      | .ok _ =>
        .ok { url := FileUrl.ofPath fs path, format := formatOf fs path, attributes := request.attributes }

def loadFormat (fs : FileSystem) (format : Option ModuleFormat) (path : String) : Except HookError ModuleFormat :=
  match format.or (formatOf fs path) with
  | some format => .ok format
  | none => .error (.unknownExtension path)

def load (fs : FileSystem) (request : LoadRequest) : Traced (Except HookError LoadResult) :=
  match FileUrl.toPath request.url with
  | .error e => pure (.error (.url e))
  | .ok path =>
    match loadFormat fs request.format path with
    | .error e => pure (.error e)
    | .ok format =>
      match fs.read path with
      | .error e => pure (.error (.unreadable e))
      | .ok content => do
        Run.mark (.log (.debug "hooks" "default load" [("file", .text path), ("format", .text format.name)]))
        return .ok { source := Text.Utf8.decode content, format := some format }

end ScriptLoader.Host
