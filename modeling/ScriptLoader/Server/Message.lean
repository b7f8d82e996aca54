import ScriptLoader.Json.Writer
import ScriptLoader.ModuleFormat
import ScriptLoader.Url.Query

/-! Requests to the server and its responses. -/

set_option autoImplicit false
namespace ScriptLoader.Server

structure Request where
  method : String
  url : Url

inductive RequestProblem where
  | malformedLine (line : String)
  | badMethod (method : String)
  | badVersion (version : String)
  | malformedTarget (target : String) (problem : UrlProblem)
  | relativeTarget (target : String)
  deriving DecidableEq, Repr

def RequestProblem.message : RequestProblem → String
  | .malformedLine line => "malformed HTTP request " ++ Text.quoted line
  | .badMethod method => "invalid method " ++ Text.quoted method
  | .badVersion version => "malformed HTTP version " ++ Text.quoted version
  | .malformedTarget target problem => "parse " ++ Text.quoted target ++ ": " ++ problem.message
  | .relativeTarget target =>
    "parse " ++ Text.quoted target ++ ": " ++ if target = "" then "empty url" else "invalid URI for request"

namespace Request

def ofTarget (method target : String) : Except RequestProblem Request :=
  let text := Text.Utf8.encode target
  let malformed (problem : UrlProblem) : Except RequestProblem Request := .error (.malformedTarget target problem)
  if text.any Url.isControl then malformed .controlCharacter
  else if text.head? = some (Url.byte '/') then
    let (path, query) := Url.cut (Url.byte '?') text
    match Url.unescape path with
    | .error escape => malformed (.badEscape escape)
    | .ok decoded => .ok ⟨method, { path := decoded, writtenPath := path, query := query }⟩
  else match Url.scheme? text, Url.parse text with
    | .error problem, _ => malformed problem
    | .ok (scheme, _), parsed =>
      if scheme = [] ∧ target ≠ "*" then .error (.relativeTarget target)
      else match parsed with
        | .error problem => malformed problem
        | .ok url => .ok ⟨method, url⟩

/-- A request for a connection names a host in the place of a URL. -/
def targetOf (method target : String) : String :=
  if method = "CONNECT" ∧ !Text.startsWith target "/" then "http://" ++ target else target

def isMethodChar (c : Char) : Bool := c.isAlphanum || "!#$%&'*+-.^_`|~".toList.contains c

def isVersion (text : List Char) : Bool :=
  match Text.after? "HTTP/".toList text with
  | some [major, '.', minor] => major.isDigit && minor.isDigit
  | _ => false

def ofLine (line : List Char) : Except RequestProblem Request :=
  match Text.cut? [' '] line with
  | none => .error (.malformedLine (String.ofList line))
  | some (method, rest) =>
    match Text.cut? [' '] rest with
    | none => .error (.malformedLine (String.ofList line))
    | some (target, version) =>
      if method.isEmpty || !method.all isMethodChar then .error (.badMethod (String.ofList method))
      else if !isVersion version then .error (.badVersion (String.ofList version))
      else ofTarget (String.ofList method) (targetOf (String.ofList method) (String.ofList target))

/-- A request as it is sent. The line ends where a line end is written. -/
def send (method target : String) : Except RequestProblem Request :=
  ofLine (Text.trimEnd (· = '\r') ((method ++ " " ++ target ++ " HTTP/1.0").toList.takeWhile (· ≠ '\n')))

/-- Whether the path is written as `Url.escapePath` would write it. -/
def isUsuallyWritten (request : Request) : Bool :=
  (Url.escapePath request.url.path).map Url.byte = request.url.writtenPath

/-- The path by which a request is routed: decoded when it is written in the usual way, and otherwise as it is
written. -/
def routedPath (request : Request) : List UInt8 :=
  let path := if request.isUsuallyWritten then request.url.path else request.url.writtenPath
  if path.isEmpty then [Url.byte '/'] else path

end Request

structure Response where
  status : Nat
  contentType : String := ""
  format : Option ModuleFormat := none
  /-- The methods that are allowed, when another one was used. -/
  allow : List String := []
  body : String := ""
  deriving DecidableEq, Repr

namespace Response

def plainText : String := "text/plain; charset=utf-8"

def plain (status : Nat) (message : String) : Response :=
  { status := status, contentType := plainText, body := message ++ "\n" }

def json (status : Nat) (members : List (String × Json)) : Response :=
  { status := status, contentType := "application/json", body := Json.record members ++ "\n" }

end Response
end ScriptLoader.Server
