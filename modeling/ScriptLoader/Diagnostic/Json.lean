import ScriptLoader.Diagnostic.Basic
import ScriptLoader.Json.Access

/-! Diagnostics as JSON. -/

set_option autoImplicit false
namespace ScriptLoader
open Json.Access

/-- The category of a name; a diagnostic without one is an error. -/
def Category.ofName (name : String) : Category :=
  if name = "message" then .message
  else if name = "suggestion" then .suggestion
  else if name = "warning" then .warning
  else if name = "unknown" then .ofByte 9
  else .error

namespace Diagnostic

def ofJson (j : Json) : Diagnostic where
  category := .ofName (str j "category")
  code := ⟨UInt32.ofInt (int j "code")⟩
  message := str j "message"
  file := str j "file"
  line := int j "line"
  column := int j "column"
  length := int j "length"
  lineText := str j "line_text"

def toJson (d : Diagnostic) : Json :=
  .object [("category", .string d.category.name), ("code", .ofNat d.code.value.toNat), ("message", .string d.message),
    ("file", .string d.file), ("line", .ofInt d.line), ("column", .ofInt d.column), ("length", .ofInt d.length),
    ("line_text", .string d.lineText)]

end Diagnostic
end ScriptLoader
