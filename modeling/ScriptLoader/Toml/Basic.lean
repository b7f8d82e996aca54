/-! TOML: what a text says, statement by statement. -/

set_option autoImplicit false
namespace ScriptLoader.Toml

abbrev Key := List String

inductive Value where
  | string (text : String)
  | bool (value : Bool)
  | integer
  | float
  | datetime
  | array (items : List Value)
  | inlineTable (members : List (Key × Value))

def Value.isArray : Value → Bool
  | .array _ => true
  | _ => false

inductive Statement where
  | table (key : Key)
  | tableElement (key : Key)
  | pair (key : Key) (value : Value)

/-- Letters, digits, underscore and dash, which need no quotes in a key. -/
def isBare (c : Char) : Bool := c.isAlphanum || c = '_' || c = '-'

def escapeChar (c : Char) : String :=
  let n := c.toNat
  if c = '"' then "\\\""
  else if c = '\\' then "\\\\"
  else if n = 0x08 then "\\b"
  else if n = 0x09 then "\\t"
  else if n = 0x0A then "\\n"
  else if n = 0x0C then "\\f"
  else if n = 0x0D then "\\r"
  else if n < 0x20 ∨ n = 0x7F then
    "\\u00" ++ (if n < 0x10 then "0" else "") ++ String.ofList (Nat.toDigits 16 n)
  else String.singleton c

def renderText (text : String) : String := "\"" ++ String.join (text.toList.map escapeChar) ++ "\""

def renderPart (part : String) : String :=
  if part ≠ "" ∧ part.toList.all isBare then part else renderText part

def renderKey (key : Key) : String := String.intercalate "." (key.map renderPart)

end ScriptLoader.Toml
