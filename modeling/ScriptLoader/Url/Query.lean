import ScriptLoader.Url.Basic

/-! Queries of URLs: pairs of names and values. -/

set_option autoImplicit false
namespace ScriptLoader.Query

/-- Undoes the encoding of a name or a value, in which a plus sign stands for a blank. -/
def unescape (text : List UInt8) : Option (List UInt8) :=
  (Url.unescape (text.map fun b => if b = Url.byte '+' then Url.byte ' ' else b)).toOption

/-- Reads a pair. Text with a semicolon or a broken escape is no pair. -/
def pair? (text : List UInt8) : Option (List UInt8 × List UInt8) :=
  if text.isEmpty || text.contains (Url.byte ';') then none
  else
    let (name, value) := Url.cut (Url.byte '=') text
    match unescape name, unescape value with
    | some name, some value => some (name, value)
    | _, _ => none

def pairs (query : List UInt8) : List (List UInt8 × List UInt8) :=
  (Text.split (Url.byte '&') query).filterMap pair?

/-- The first value of a name; empty without one. -/
def value (query : List UInt8) (name : String) : List UInt8 :=
  ((pairs query).lookup (Text.Utf8.encode name)).getD []

end ScriptLoader.Query
