import ScriptLoader.FileTree
import ScriptLoader.Url.Basic

/-!
URLs of files. Every absolute path has a URL that leads back to it, whatever bytes it holds; `ofBytes`
writes it and `toBytes` reads it.
-/

set_option autoImplicit false
namespace ScriptLoader

inductive FileUrlError where
  | malformed (url part : String) (problem : UrlProblem)
  | otherScheme (url : String)
  | otherHost (url : String)
  | notAbsolute (url : String)
  deriving DecidableEq, Repr

def FileUrlError.message : FileUrlError → String
  | .malformed url part problem =>
    "invalid URL " ++ Text.quoted url ++ ": parse " ++ Text.quoted part ++ ": " ++ problem.message
  | .otherScheme url => "the URL must be of scheme file: " ++ Text.quoted url
  | .otherHost url => "file URL host must be \"localhost\" or empty: " ++ Text.quoted url
  | .notAbsolute url => "file URL must be absolute: " ++ Text.quoted url

namespace FileUrl

def bytes (s : String) : List UInt8 := s.toList.map Url.byte

def toBytes (url : String) : Except FileUrlError (List UInt8) :=
  let text := String.ofList (url.toList.takeWhile (· ≠ '#'))
  match Url.parse (Text.Utf8.encode text) with
  | .error problem => .error (.malformed url text problem)
  | .ok parsed =>
    match Url.unescape (Text.Utf8.encode (String.ofList ((url.toList.dropWhile (· ≠ '#')).drop 1))) with
    | .error escape => .error (.malformed url url (.badEscape escape))
    | .ok _ =>
      if parsed.scheme ≠ bytes "file" then .error (.otherScheme url)
      else if parsed.host ≠ [] ∧ parsed.host ≠ bytes "localhost" then .error (.otherHost url)
      else if parsed.path.head? ≠ some (Url.byte '/') then .error (.notAbsolute url)
      else .ok parsed.path

def ofBytes (path : List UInt8) : String := "file://" ++ String.ofList (Url.escapePath path)

def toPath (url : String) : Except FileUrlError String := (toBytes url).map Text.Utf8.decode

def ofPath (fs : FileSystem) (path : String) : String := ofBytes (Text.Utf8.encode (fs.abs path))

end FileUrl
end ScriptLoader
