import ScriptLoader.Bundler.Basic
import ScriptLoader.Json.Access

/-!
A bundler that answers from a script: for each file, specifier and project what to answer. What the script
leaves out succeeds, except that a specifier without an answer is not found.
-/

set_option autoImplicit false
namespace ScriptLoader.Bundler
open Json.Access

def syntaxName : SourceSyntax → String
  | .plain => "ts"
  | .withMarkup => "tsx"

def messageIn (j : Json) : BundlerMessage :=
  let place := get j "location"
  { text := str j "text"
    place := if !isGiven j "location" then none
      else some ⟨str place "file", int place "line", int place "column", int place "length", str place "line_text"⟩ }

def messagesIn (j : Json) (name : String) : List BundlerMessage := (list j name).map messageIn

def ofScript (j : Json) : Bundler where
  transform request :=
    let entry := get (get j "transform") request.file
    { code := if isGiven entry "code" then str entry "code"
        else "// " ++ request.format.name ++ " " ++ request.target.name ++ " " ++
          syntaxName request.sourceSyntax ++ "\n" ++ request.text
      errors := messagesIn entry "errors"
      warnings := messagesIn entry "warnings" }
  resolve request :=
    let entry := get (get j "resolve") request.specifier
    if has (get j "resolve") request.specifier then
      { path := str entry "path"
        space := if str entry "namespace" = "" then "file" else str entry "namespace"
        isExternal := bool entry "external"
        errors := messagesIn entry "errors" }
    else { errors := [⟨"Could not resolve", none⟩] }
  build request := messagesIn (get (get j "build") request.config) "errors"

end ScriptLoader.Bundler
