import ScriptLoader.Hooks.Loader
import ScriptLoader.Server.LocalPath
import ScriptLoader.Server.Metrics

/-!
The server that hands out compiled modules. `answer` is what an endpoint says, and `serve` routes a
request, answers it and keeps count.
-/

set_option autoImplicit false
namespace ScriptLoader

structure Server where
  /-- The served directory, as a clean absolute path. -/
  root : String
  chain : Chain
  showsMetrics : Bool := true
  counts : Bool := true

namespace Server

inductive SetupError where
  | noChain
  deriving DecidableEq, Repr

def SetupError.message : SetupError → String
  | .noChain => "server: hook chain is required"

def new (fs : FileSystem) (root : String) (chain : Option Chain) (showsMetrics counts : Bool := true) :
    Except SetupError Server :=
  match chain with
  | none => .error .noChain
  | some chain => .ok ⟨fs.abs root, chain, showsMetrics, counts⟩

def pathBelow? (root url : String) : Option String :=
  match FileUrl.toPath url with
  | .error _ => none
  | .ok path => (Path.rel? root path).bind fun path => if Text.startsWith path ".." then none else some path

def resolve (server : Server) (setting : Setting) (query : List UInt8) : Traced Response := do
  let specifier := Query.value query "specifier"
  let parent := Query.value query "parent"
  if specifier.isEmpty || parent.isEmpty then
    return .json 400 [("error", .string "specifier and parent are required")]
  else match localPath server.root parent with
    | none => return .json 400 [("error", .string "parent must be a path inside the served root")]
    | some parent =>
      match ← server.chain.resolve setting ⟨Text.Utf8.decode specifier, FileUrl.ofPath setting.fs parent, none⟩ with
      | .error e => return .json 404 [("error", .string (e.message setting.fs.cwd))]
      | .ok result =>
        let path := (pathBelow? server.root result.url).map fun path => ("path", Json.string path)
        let format := result.format.map fun format => ("format", Json.string format.name)
        return .json 200 ([("url", .string result.url)] ++ path.toList ++ format.toList ++
          [("shortCircuit", .bool result.shortCircuit)])

def loadFailure (root cwd : String) : HookError → Response
  | .compilation e =>
    match e.cause with
    | .problem p => .plain 422 (p.format cwd { cwd := root })
    | .crashed _ => { status := 500 }
    | _ => .plain 500 (e.message cwd)
  | .unknownExtension path => .plain 415 ((HookError.unknownExtension path).message cwd)
  | e => .plain 500 (e.message cwd)

def sendModule (server : Server) (setting : Setting) (path query : List UInt8) : Traced Response := do
  match localPath server.root path with
  | none => return .plain 400 "invalid module path"
  | some file =>
    match ModuleFormat.ofName (Text.Utf8.decode (Query.value query "format")) with
    | .error e => return .plain 400 e.message
    | .ok hint =>
      if !(setting.fs.stat file).isOk then return .plain 404 "module not found"
      else match ← server.chain.load setting ⟨FileUrl.ofPath setting.fs file, hint⟩ with
        | .error e => return loadFailure server.root setting.fs.cwd e
        | .ok result =>
          return { status := 200, contentType := "text/javascript; charset=utf-8", format := result.format,
                   body := result.source }

def answer (server : Server) (metrics : Metrics) (setting : Setting) (request : Request) :
    Route → Traced Response
  | .notFound => pure (.plain 404 "404 page not found")
  | .methodNotAllowed allowed => pure { status := 405, allow := allowed }
  | .endpoint .health => pure (.plain 200 "ok")
  | .endpoint .metrics => pure { status := 200, contentType := Response.plainText, body := metrics.render }
  | .endpoint .resolve => server.resolve setting request.url.query
  | .endpoint (.module path) => server.sendModule setting path request.url.query

def count (server : Server) (metrics : Metrics) (request : Request) (status : Nat) (trace : List Happening) :
    Except BadLabel Metrics :=
  if !server.counts then .ok metrics
  else
    let finished := trace.foldl (fun metrics happening =>
      match happening with
      | .progress event => metrics.addEvent event
      | _ => metrics) metrics
    finished.addRequest (route server.showsMetrics request) request status

/-- Answers a request, and counts it afterwards. There is no response to a request that cannot be counted. -/
def serve (server : Server) (metrics : Metrics) (setting : Setting) (request : Request) :
    Traced (Except BadLabel (Response × Metrics)) :=
  let run := server.answer metrics setting request (route server.showsMetrics request)
  ⟨run.trace, (server.count metrics request run.value.status run.trace).map fun counted => (run.value, counted)⟩

end Server
end ScriptLoader
