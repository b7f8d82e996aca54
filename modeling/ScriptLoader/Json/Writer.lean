import ScriptLoader.Json.Basic
import ScriptLoader.Text.Utf8

/-!
Writing JSON text. Members stand in order of their written names, quotes and escapes included. Besides
what JSON demands, the characters that could end a script element or a line of script are escaped, and
the escape of the replacement character stands for a byte that belongs to no character.
-/

set_option autoImplicit false
namespace ScriptLoader.Json

/-- Numbers have the fewest digits that read back; below `10 ^ -6` and from `10 ^ 21` on an exponent is written. -/
def numberLayout : Decimal.Layout := ⟨-6, 21, 2⟩

def escapeChar (c : Char) : List Char :=
  if Text.Utf8.isStray c then '\\' :: 'u' :: (Text.hex 4 Text.Utf8.replacement.toNat).toList
  else if c = '"' then ['\\', '"']
  else if c = '\\' then ['\\', '\\']
  else if c = '\n' then ['\\', 'n']
  else if c = '\r' then ['\\', 'r']
  else if c = '\t' then ['\\', 't']
  else if c.toNat < 0x20 ∨ c = '<' ∨ c = '>' ∨ c = '&' then '\\' :: 'u' :: (Text.hex 4 c.toNat).toList
  else if c.toNat = 0x2028 ∨ c.toNat = 0x2029 then '\\' :: 'u' :: (Text.hex 4 c.toNat).toList
  else [c]

def quote (s : String) : String := String.ofList ('"' :: s.toList.flatMap escapeChar ++ ['"'])

def sortMembers (members : List (String × String)) : List (String × String) :=
  members.mergeSort fun a b => decide (a.1 ≤ b.1)

def commaList (items : List String) : String := String.intercalate "," items

mutual

def render : Json → String
  | .null => "null"
  | .bool true => "true"
  | .bool false => "false"
  | .number value => value.render numberLayout
  | .string value => quote value
  | .array items => "[" ++ commaList (renderItems items) ++ "]"
  | .object members =>
    "\x7b" ++ commaList ((sortMembers (renderMembers members)).map fun (name, value) => name ++ ":" ++ value)
      ++ "\x7d"

def renderItems : List Json → List String
  | [] => []
  | item :: rest => render item :: renderItems rest

def renderMembers : List (String × Json) → List (String × String)
  | [] => []
  | (name, value) :: rest => (quote name, render value) :: renderMembers rest

end

def record (members : List (String × Json)) : String :=
  "\x7b" ++ commaList (members.map fun (name, value) => quote name ++ ":" ++ render value) ++ "\x7d"

def block (opening closing outer inner : String) (items : List String) : String :=
  if items.isEmpty then opening ++ closing
  else opening ++ "\n" ++ String.intercalate ",\n" (items.map (inner ++ ·)) ++ "\n" ++ outer ++ closing

mutual

/-- One element to a line, two blanks of indentation to a level, a blank after the colon. -/
def pretty (outer : String) : Json → String
  | .null => "null"
  | .bool true => "true"
  | .bool false => "false"
  | .number value => value.render numberLayout
  | .string value => quote value
  | .array items => block "[" "]" outer (outer ++ "  ") (prettyItems (outer ++ "  ") items)
  | .object members =>
    block "\x7b" "\x7d" outer (outer ++ "  ")
      ((sortMembers (prettyMembers (outer ++ "  ") members)).map fun (name, value) =>
        name ++ ": " ++ value)

def prettyItems (outer : String) : List Json → List String
  | [] => []
  | item :: rest => pretty outer item :: prettyItems outer rest

def prettyMembers (outer : String) : List (String × Json) → List (String × String)
  | [] => []
  | (name, value) :: rest => (quote name, pretty outer value) :: prettyMembers outer rest

end

def prettyRecord (members : List (String × Json)) : String :=
  block "\x7b" "\x7d" "" "  " (members.map fun (name, value) => quote name ++ ": " ++ pretty "  " value)

end ScriptLoader.Json
